import EvmRecorder.StructLog.MemoryDump
import EvmRecorder.Library.JoinedTexts

/-!
# Contents of logged events

The content of a logged event joins the texts of its topics and, if there is any,
of its data. The topics have no fixed length and the data has no mark of its own,
but neither holds a comma: the content tells them apart.
-/

namespace EvmRecorder

open Numeral Bytes

/-! ## §1  Operands -/

/-- The operands of `LOGn`, and with no topics those of `REVERT`: the offset is on
the top, the size below it, then come the topics in order. -/
def operandStack (below topics : List U256) (offset size : U256) : List U256 :=
  below ++ topics.reverse ++ [size, offset]

theorem reverse_operandStack (below topics : List U256) (offset size : U256) :
    (operandStack below topics offset size).reverse =
      offset :: size :: (topics ++ below.reverse) := by
  simp [operandStack]

theorem topTwo_operandStack (below topics : List U256) (offset size : U256) :
    topTwo (operandStack below topics offset size) = some (offset, size) := by
  rw [topTwo, reverse_operandStack]

/-- The bytes both readers take from the snapshot for their operands. -/
def operandBytes (memory : Option (List String)) (offset size : U256) : List UInt8 :=
  match toUsize offset, toUsize size with
  | some offset, some size =>
      if size = 0 then [] else (memoryRange memory offset size).getD []
  | _, _ => []

/-- The range `[offset, offset + size)` lies in the snapshot, or nothing is read. -/
def InSnapshot (memory : Option (List String)) (offset size : U256) : Prop :=
  size = 0 ∨ offset.toNat + size.toNat ≤ (decodeStructLogMemory memory).length

instance (memory : Option (List String)) (offset size : U256) :
    Decidable (InSnapshot memory offset size) :=
  inferInstanceAs (Decidable (_ ∨ _))

section

variable {memory : Option (List String)} {offset size : U256}

theorem operandBytes_eq (hfit : (decodeStructLogMemory memory).length < 2 ^ 63) :
    operandBytes memory offset size =
      if offset.toNat + size.toNat ≤ (decodeStructLogMemory memory).length then
        ((decodeStructLogMemory memory).drop offset.toNat).take size.toNat
      else [] := by
  unfold operandBytes toUsize
  by_cases hoffset : offset.toNat < 2 ^ 64
  · by_cases hsize : size.toNat < 2 ^ 64
    · rw [if_pos hoffset, if_pos hsize]
      dsimp only
      rw [memoryRange_eq _ _ hfit]
      by_cases hzero : size.toNat = 0
      · simp [hzero]
      · rw [if_neg hzero]
        split <;> rfl
    · rw [if_pos hoffset, if_neg hsize, if_neg (by omega)]
  · have hlong : ¬ offset.toNat + size.toNat ≤ (decodeStructLogMemory memory).length := by omega
    rw [if_neg hoffset, if_neg hlong]

theorem operandBytes_of_inSnapshot (hfit : (decodeStructLogMemory memory).length < 2 ^ 63)
    (hin : InSnapshot memory offset size) :
    operandBytes memory offset size =
      ((decodeStructLogMemory memory).drop offset.toNat).take size.toNat := by
  rw [operandBytes_eq hfit]
  rcases hin with rfl | hle
  · simp
  · rw [if_pos hle]

end

theorem decodeRevertOpcodePayload_operandStack (memory : Option (List String))
    (below topics : List U256) (offset size : U256) :
    decodeRevertOpcodePayload (some (operandStack below topics offset size)) memory =
      operandBytes memory offset size := by
  rw [decodeRevertOpcodePayload, Option.bind_some, topTwo_operandStack]
  rfl

/-! ## §2  The content of an event -/

def dataText (bytes : List UInt8) : String := "0x" ++ String.ofList (hexBytes bytes)

/-- The texts that a content joins; no data has no text. -/
def logTexts (topics : List U256) (data : List UInt8) : List String :=
  topics.map hexWord ++ if data = [] then [] else [dataText data]

def logContent (topics : List U256) (data : List UInt8) : String :=
  String.intercalate ", " (logTexts topics data)

theorem logContent_nil (topics : List U256) :
    logContent topics [] = String.intercalate ", " (topics.map hexWord) := by
  rw [logContent, logTexts, if_pos rfl, List.append_nil]

/-- Data is set off from the topics, if there are any. -/
theorem logContent_data (topics : List U256) {data : List UInt8} (hdata : data ≠ []) :
    logContent topics data =
      (if (logContent topics []).isEmpty then logContent topics []
        else logContent topics [] ++ ", ") ++ dataText data := by
  rw [logContent_nil, logContent, logTexts, if_neg hdata]
  cases topics with
  | nil =>
      rw [List.map_nil, List.nil_append, String.intercalate_nil, String.intercalate_singleton]
      exact (String.empty_append).symm
  | cons topic topics =>
      have hne : ¬ (String.intercalate ", " ((topic :: topics).map hexWord)).isEmpty := by
        rw [List.map_cons, String.isEmpty_iff, ← String.toList_inj, String.toList_intercalate]
        cases topics <;> simp [hexWord]
      have htexts : (topic :: topics).map hexWord ≠ [] := List.cons_ne_nil _ _
      rw [if_neg hne, String.intercalate_append_of_ne_nil htexts (List.cons_ne_nil _ _),
        String.intercalate_singleton]

theorem comma_not_mem_logTexts {topics : List U256} {data : List UInt8} {text : String}
    (h : text ∈ logTexts topics data) : text.toList ≠ [] ∧ ',' ∉ text.toList := by
  have hx : ',' ≠ 'x' := by decide
  have hdigits : ∀ d < 16, ',' ≠ Nat.digitChar d := by decide
  rcases List.mem_append.mp h with h | h
  · obtain ⟨topic, -, rfl⟩ := List.mem_map.mp h
    refine ⟨?_, not_mem_hexWord hx hdigits topic⟩
    simp [hexWord]
  · split at h
    · cases h
    · obtain rfl := List.mem_singleton.mp h
      refine ⟨?_, not_mem_hexDump hx hdigits data⟩
      simp [dataText]

theorem logTexts_of_logContent_eq {topics topics' : List U256} {data data' : List UInt8}
    (h : logContent topics data = logContent topics' data') :
    logTexts topics data = logTexts topics' data' := by
  have hlists := congrArg String.toList h
  rw [logContent, logContent, String.toList_intercalate, String.toList_intercalate] at hlists
  have htexts : ∀ {topics data}, ∀ t ∈ (logTexts topics data).map String.toList, t ≠ [] ∧ ',' ∉ t := by
    intro topics data t ht
    obtain ⟨text, hmem, rfl⟩ := List.mem_map.mp ht
    exact comma_not_mem_logTexts hmem
  have hmaps : (logTexts topics data).map String.toList = (logTexts topics' data').map String.toList :=
    JoinedTexts.intercalate_inj htexts htexts hlists
  exact List.map_injective_iff.mpr (fun s t hst => String.toList_inj.mp hst) hmaps

/-- With the number of topics, a content has one list of topics and one data. -/
theorem logContent_inj {topics topics' : List U256} {data data' : List UInt8}
    (hlength : topics.length = topics'.length)
    (h : logContent topics data = logContent topics' data') : topics = topics' ∧ data = data' := by
  have htexts := logTexts_of_logContent_eq h
  obtain ⟨htopics, hdata⟩ := List.append_inj htexts (by rw [List.length_map, List.length_map, hlength])
  refine ⟨List.map_injective_iff.mpr hexWord_injective htopics, ?_⟩
  by_cases hnil : data = [] <;> by_cases hnil' : data' = []
  · rw [hnil, hnil']
  · rw [if_pos hnil, if_neg hnil'] at hdata
    cases hdata
  · rw [if_neg hnil, if_pos hnil'] at hdata
    cases hdata
  · rw [if_neg hnil, if_neg hnil'] at hdata
    exact hexDump_inj (List.cons.inj hdata).1

/-! ## §3  Logs -/

section

variable {memory : Option (List String)} {below topics : List U256} {offset size : U256}

theorem ne_nil_of_memoryRange (hfit : (decodeStructLogMemory memory).length < 2 ^ 63)
    {off len : Nat} {bytes : List UInt8} (hlen : len ≠ 0)
    (h : memoryRange memory off len = some bytes) : bytes ≠ [] := by
  rw [memoryRange_eq off len hfit] at h
  split at h
  · next hle =>
      obtain rfl := Option.some.inj h
      apply List.ne_nil_of_length_pos
      rw [List.length_take, List.length_drop]
      omega
  · cases h

theorem buildLogEventContent_operandStack
    (hfit : (decodeStructLogMemory memory).length < 2 ^ 63) (htopics : topics.length ≤ 4) :
    buildLogEventContent ("LOG" ++ Nat.repr topics.length)
        (some (operandStack below topics offset size)) memory =
      some (logContent topics (operandBytes memory offset size)) := by
  have hstrip : stripPrefix "LOG".toList ("LOG" ++ Nat.repr topics.length).toList =
      some (printNat topics.length) := by
    rw [String.toList_append, stripPrefix_append]
    simp [printNat]
  have hparse : parseUnsigned (2 ^ 32) (printNat topics.length) = some topics.length :=
    parseUnsigned_printNat (by omega)
  have hheight : ¬ (operandStack below topics offset size).length < 2 + topics.length := by
    simp [operandStack]
    omega
  have hread : (((operandStack below topics offset size).reverse.drop 2).take topics.length) =
      topics := by
    rw [reverse_operandStack]
    exact List.take_left
  simp only [buildLogEventContent, hstrip, Option.bind_eq_bind, Option.bind_some, hparse,
    topTwo_operandStack, hread]
  rw [if_neg (by omega), if_neg hheight, ← logContent_nil, operandBytes]
  cases toUsize size with
  | none => cases toUsize offset <;> rfl
  | some len =>
      cases toUsize offset with
      | none => rfl
      | some off =>
          dsimp only
          by_cases hzero : len = 0
          · rw [if_pos hzero, if_pos hzero]
          · rw [if_neg hzero, if_neg hzero]
            cases hrange : memoryRange memory off len with
            | none => rfl
            | some data =>
                rw [Option.getD_some,
                  logContent_data topics (ne_nil_of_memoryRange hfit hzero hrange)]
                exact congrArg some String.append_assoc

end

/-- Equal contents of two `LOGn` entries show equal topics and equal data. -/
theorem buildLogEventContent_injective {n : Nat} (hn : n ≤ 4)
    {memory memory' : Option (List String)} {below below' topics topics' : List U256}
    {offset size offset' size' : U256} (htopics : topics.length = n) (htopics' : topics'.length = n)
    (hfit : (decodeStructLogMemory memory).length < 2 ^ 63)
    (hfit' : (decodeStructLogMemory memory').length < 2 ^ 63)
    (hin : InSnapshot memory offset size) (hin' : InSnapshot memory' offset' size')
    (h : buildLogEventContent ("LOG" ++ Nat.repr n)
        (some (operandStack below topics offset size)) memory =
      buildLogEventContent ("LOG" ++ Nat.repr n)
        (some (operandStack below' topics' offset' size')) memory') :
    topics = topics' ∧
      ((decodeStructLogMemory memory).drop offset.toNat).take size.toNat =
        ((decodeStructLogMemory memory').drop offset'.toNat).take size'.toNat := by
  rw [← operandBytes_of_inSnapshot hfit hin, ← operandBytes_of_inSnapshot hfit' hin']
  have hcontent : buildLogEventContent ("LOG" ++ Nat.repr n)
      (some (operandStack below topics offset size)) memory =
        some (logContent topics (operandBytes memory offset size)) := by
    rw [← htopics] at hn ⊢
    exact buildLogEventContent_operandStack hfit hn
  have hcontent' : buildLogEventContent ("LOG" ++ Nat.repr n)
      (some (operandStack below' topics' offset' size')) memory' =
        some (logContent topics' (operandBytes memory' offset' size')) := by
    rw [← htopics'] at hn ⊢
    exact buildLogEventContent_operandStack hfit' hn
  rw [hcontent, hcontent'] at h
  exact logContent_inj (htopics.trans htopics'.symm) (Option.some.inj h)

/-- The same event logged from another height of the stack and another place in memory. -/
theorem buildLogEventContent_injective_moved :
    ([0xab] : List U256) = [0xab] ∧
      ((decodeStructLogMemory (some ["cafe"])).drop (0 : U256).toNat).take (2 : U256).toNat =
        ((decodeStructLogMemory (some ["", "0xCAFE"])).drop (32 : U256).toNat).take
          (2 : U256).toNat :=
  @buildLogEventContent_injective 1 (by decide) (some ["cafe"]) (some ["", "0xCAFE"]) [] [9, 9]
    [0xab] [0xab] 0 2 32 2 rfl rfl (by decide) (by decide) (by decide) (by decide)
    (by decide +kernel)

end EvmRecorder
