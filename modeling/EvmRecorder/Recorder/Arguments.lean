import EvmRecorder.Model.RecorderParts

/-!
# Staged arguments

At an internal call the recorder reads the callee's arguments off the concrete
stack and labels the same slots in the tracker. Both positions are computed from
the number of parameters and the number of items above them; the two
computations agree, and stay in range unless the sum of the two numbers wraps.
One slot is counted per parameter, so a parameter passed as two words moves every
earlier one off its own slot.
-/

namespace EvmRecorder

open Stack Bytes

/-! ## §1  Seeded labels -/

namespace StackTracker

theorem seedTopLabels_of_le (self : StackTracker) {stackDepth : Nat} {labels : List String}
    (h : labels.length ≤ stackDepth) :
    self.seedTopLabels stackDepth labels =
      ⟨List.replicate (stackDepth - labels.length) none ++ labels.map some⟩ := by
  unfold seedTopLabels
  split
  · next hseed =>
      rw [Bool.or_eq_true, List.isEmpty_iff, decide_eq_true_eq] at hseed
      rcases hseed with rfl | hlt
      · simp
      · exact absurd h (Nat.not_le.mpr hlt)
  · rfl

theorem seedTopLabels_of_lt (self : StackTracker) {stackDepth : Nat} {labels : List String}
    (h : stackDepth < labels.length) :
    self.seedTopLabels stackDepth labels = ⟨List.replicate stackDepth none⟩ := by
  simp [seedTopLabels, h]

/-- The labels are in the top slots, left to right. -/
theorem getElem?_seedTopLabels_eq_some_iff (self : StackTracker) {stackDepth : Nat}
    {labels : List String} (h : labels.length ≤ stackDepth) {slot : Nat} {label : String} :
    (self.seedTopLabels stackDepth labels).slots[slot]? = some (some label) ↔
      ∃ i, labels[i]? = some label ∧ slot = stackDepth - labels.length + i := by
  rw [seedTopLabels_of_le self h]
  constructor
  · intro hslot
    rcases Nat.lt_or_ge slot (stackDepth - labels.length) with hlt | hge
    · rw [List.getElem?_append_left (by simpa using hlt), List.getElem?_replicate, if_pos hlt]
        at hslot
      exact absurd (Option.some.inj hslot) (Option.some_ne_none label).symm
    · rw [List.getElem?_append_right (by simpa using hge), List.length_replicate] at hslot
      exact ⟨_, by simpa using hslot, (Nat.add_sub_cancel' hge).symm⟩
  · rintro ⟨i, hi, rfl⟩
    rw [List.getElem?_append_right (by simp)]
    simp [hi]

/-- With distinct labels each one is found in its own slot. -/
theorem getVariableValue_seedTopLabels (self : StackTracker) {stackDepth : Nat}
    {labels : List String} (h : labels.length ≤ stackDepth) (hdistinct : labels.Nodup) {i : Nat}
    {label : String} (hi : labels[i]? = some label) (stack : List U256) :
    (self.seedTopLabels stackDepth labels).getVariableValue label stack =
      stack[stackDepth - labels.length + i]? := by
  obtain ⟨hlt, rfl⟩ := List.getElem?_eq_some_iff.mp hi
  have hsplit : labels = labels.take i ++ labels[i] :: labels.drop (i + 1) := by simp
  have habove : ∀ slot ∈ (labels.drop (i + 1)).map some,
      decide (slot = some labels[i]) = false := by
    intro slot hslot
    obtain ⟨other, hother, rfl⟩ := List.mem_map.mp hslot
    rw [decide_eq_false_iff_not, Option.some.injEq]
    rintro rfl
    rw [hsplit] at hdistinct
    exact (List.nodup_cons.mp (List.Nodup.of_append_right hdistinct)).1 hother
  have hpos : rposition (fun slot => decide (slot = some labels[i]))
      (self.seedTopLabels stackDepth labels).slots = some (stackDepth - labels.length + i) := by
    have hslots : (self.seedTopLabels stackDepth labels).slots =
        (List.replicate (stackDepth - labels.length) none ++ (labels.take i).map some) ++
          some labels[i] :: (labels.drop (i + 1)).map some := by
      rw [seedTopLabels_of_le self h, List.append_assoc, ← List.map_cons, ← List.map_append,
        ← hsplit]
    rw [hslots, rposition_append_cons (by simp) habove]
    simp [Nat.min_eq_left (Nat.le_of_lt hlt)]
  rw [getVariableValue, hpos]
  rfl

end StackTracker

/-! ## §2  Arguments read off the stack -/

/-- What is emitted for one parameter. -/
def argEvents (param : VarDecl) (value : U256) : List TraceEvent :=
  let typeId : TypeId := ⟨typeKindForSolidityType param.typeName, param.typeName⟩
  [.ensureTypeId typeId, .arg param.name (.raw ⟨hexWord value, typeId⟩)]

section Staged

variable (tracker : StackTracker) {func : FunctionDef} {stack : List U256} {above : Nat}

theorem stageInternalCallArgs_of_le (h : func.parameters.length + above ≤ stack.length) :
    stageInternalCallArgs tracker (some func) (some stack) above =
      (tracker.seedTopLabels (stack.length - above) (func.parameters.map (·.name)),
        (func.parameters.zip (stack.extract (stack.length - func.parameters.length - above)
          (stack.length - above))).flatMap fun e => argEvents e.1 e.2) := by
  have hstart : stack.length - (func.parameters.length + above) =
      stack.length - func.parameters.length - above := by omega
  have hcount : stack.length - above - (stack.length - func.parameters.length - above) =
      func.parameters.length := by omega
  simp only [stageInternalCallArgs, List.length_map, List.extract_eq_take_drop, hstart, hcount]
  split
  · next hempty =>
      rw [Bool.or_eq_true, List.isEmpty_iff, List.map_eq_nil_iff, decide_eq_true_eq] at hempty
      rcases hempty with hnil | hlt
      · simp [hnil]
      · exact absurd h (Nat.not_le.mpr hlt)
  · rfl

theorem stageInternalCallArgs_of_lt (hpos : 0 < func.parameters.length)
    (h : stack.length < func.parameters.length + above) :
    stageInternalCallArgs tracker (some func) (some stack) above =
      (⟨List.replicate (stack.length - above) none⟩, []) := by
  have hshort : stack.length - above < (func.parameters.map (·.name)).length := by
    rw [List.length_map]
    omega
  simp [stageInternalCallArgs, h, tracker.seedTopLabels_of_lt hshort]

end Staged

/-! ## §3  The computation on `usize`

Additions wrap; an index or a subtraction that goes out of range is `none`. An
index into a vector that is held in memory does not wrap. -/

/-- `a - b`. -/
def subUsize (a b : Nat) : Option Nat := if b ≤ a then some (a - b) else none

/-- `v[i] = x`. -/
def setIndex {α : Type} (v : List α) (i : Nat) (x : α) : Option (List α) :=
  if i < v.length then some (v.set i x) else none

/-- `seed_top_labels`. -/
def seedTopLabelsUsize (stackDepth : Nat) (labels : List String) : Option StackTracker :=
  let slots : List (Option String) := List.replicate stackDepth none
  if labels.isEmpty || stackDepth < labels.length then some ⟨slots⟩
  else do
    let firstLabelledSlot ← subUsize stackDepth labels.length
    let slots ← labels.zipIdx.foldlM
      (fun slots e => setIndex slots (firstLabelledSlot + e.2) (some e.1)) slots
    some ⟨slots⟩

/-- `stage_internal_call_args`. -/
def stageInternalCallArgsUsize (tracker : StackTracker) (target : Option FunctionDef)
    (concreteStack : Option (List U256)) (stackItemsAboveParams : Nat) :
    Option (StackTracker × List TraceEvent) :=
  match target, concreteStack with
  | some func, some stack => do
      let paramNames := func.parameters.map (·.name)
      let calleeStackDepth := stack.length - stackItemsAboveParams
      let occupiedSlots := (paramNames.length + stackItemsAboveParams) % 2 ^ 64
      if paramNames.isEmpty || stack.length < occupiedSlots then
        let seeded ← seedTopLabelsUsize calleeStackDepth paramNames
        some (seeded, [])
      else
        let firstParamSlot ← subUsize stack.length occupiedSlots
        let args ← func.parameters.zipIdx.mapM fun e =>
          (stack[firstParamSlot + e.2]?).map (argEvents e.1)
        let seeded ← seedTopLabelsUsize calleeStackDepth paramNames
        some (seeded, args.flatten)
  | _, _ => some (tracker.reset, [])

theorem subUsize_of_le {a b : Nat} (h : b ≤ a) : subUsize a b = some (a - b) := if_pos h

/-- The labelling loop, from label `i` on. -/
theorem foldlM_setIndex (first : Nat) : ∀ (labels : List String) (i : Nat)
    (slots : List (Option String)), slots.length = first + i →
    (labels.zipIdx i).foldlM (fun slots e => setIndex slots (first + e.2) (some e.1))
      (slots ++ List.replicate labels.length none) = some (slots ++ labels.map some)
  | [], i, slots, _ => by simp
  | label :: labels, i, slots, hlen => by
      have hset : setIndex (slots ++ List.replicate (labels.length + 1) none) (first + i)
          (some label) = some ((slots ++ [some label]) ++ List.replicate labels.length none) := by
        rw [setIndex, if_pos (by simp [hlen]), ← hlen, List.set_append_right _ _ (Nat.le_refl _)]
        simp [List.replicate_succ]
      have ih := foldlM_setIndex first labels (i + 1) (slots ++ [some label])
        (by simp [hlen, Nat.add_assoc])
      rw [List.zipIdx_cons, List.foldlM_cons, List.length_cons, hset]
      simpa using ih

theorem seedTopLabelsUsize_eq (tracker : StackTracker) (stackDepth : Nat)
    (labels : List String) :
    seedTopLabelsUsize stackDepth labels = some (tracker.seedTopLabels stackDepth labels) := by
  unfold seedTopLabelsUsize StackTracker.seedTopLabels
  split
  · rfl
  · next hseed =>
      rw [Bool.or_eq_true, not_or, decide_eq_true_eq, Nat.not_lt] at hseed
      have hslots : List.replicate stackDepth (none : Option String) =
          List.replicate (stackDepth - labels.length) none ++
            List.replicate labels.length none := by
        rw [List.replicate_append_replicate, Nat.sub_add_cancel hseed.2]
      rw [subUsize_of_le hseed.2, hslots]
      have hfold := foldlM_setIndex (stackDepth - labels.length) labels 0
        (List.replicate (stackDepth - labels.length) none) (by simp)
      simp only [Option.bind_eq_bind, Option.bind_some, hfold]

/-- The reading loop, from parameter `i` on. -/
theorem mapM_argEvents (stack : List U256) (first : Nat) : ∀ (params : List VarDecl) (i : Nat),
    first + i + params.length ≤ stack.length →
    ((params.zipIdx i).mapM fun e => (stack[first + e.2]?).map (argEvents e.1)) =
      some ((params.zip ((stack.drop (first + i)).take params.length)).map
        fun e => argEvents e.1 e.2)
  | [], i, _ => rfl
  | param :: params, i, h => by
      rw [List.length_cons] at h
      have hlt : first + i < stack.length := by omega
      have ih := mapM_argEvents stack first params (i + 1) (by omega)
      rw [List.zipIdx_cons, List.mapM_cons, List.getElem?_eq_getElem hlt, ih,
        List.drop_eq_getElem_cons hlt, ← Nat.add_assoc]
      rfl

/-- Unless the sum wraps, nothing goes out of range and the result is the one
computed on naturals. -/
theorem stageInternalCallArgsUsize_eq (tracker : StackTracker) (func : FunctionDef)
    (stack : List U256) {above : Nat} (h : func.parameters.length + above < 2 ^ 64) :
    stageInternalCallArgsUsize tracker (some func) (some stack) above =
      some (stageInternalCallArgs tracker (some func) (some stack) above) := by
  simp only [stageInternalCallArgsUsize, stageInternalCallArgs, List.length_map,
    Nat.mod_eq_of_lt h, seedTopLabelsUsize_eq tracker]
  split
  · rfl
  · next hshort =>
      rw [Bool.or_eq_true, not_or, decide_eq_true_eq, Nat.not_lt] at hshort
      have hread := mapM_argEvents stack
        (stack.length - (func.parameters.length + above)) func.parameters 0 (by omega)
      rw [subUsize_of_le hshort.2]
      simp only [Option.bind_eq_bind, Option.bind_some, hread, Nat.add_zero, List.flatMap_def,
        argEvents]

/-! ## §4  Arguments and labels agree -/

/-- Every index and subtraction is in range. With enough items on the stack the
words below the `above` top ones are emitted in parameter order, and each
parameter's label is at the word emitted for it; with too few nothing is emitted
and no slot is labelled. -/
def StagesArguments (tracker : StackTracker) (func : FunctionDef) (stack : List U256)
    (above : Nat) : Prop :=
  let n := func.parameters.length
  let words := stack.extract (stack.length - n - above) (stack.length - above)
  ∃ staged, stageInternalCallArgsUsize tracker (some func) (some stack) above = some staged ∧
    (n + above ≤ stack.length →
      words.length = n ∧
      staged.2 = (func.parameters.zip words).flatMap (fun e => argEvents e.1 e.2) ∧
      ∀ e ∈ func.parameters.zip words,
        staged.1.getVariableValue e.1.name (stack.take (stack.length - above)) = some e.2) ∧
    (0 < n → stack.length < n + above → staged.2 = [] ∧ ∀ slot ∈ staged.1.slots, slot = none)

/-- **Staged arguments and seeded labels agree**, for every number of parameters,
every stack and every number of items above the parameters that do not add up
beyond a `usize`. -/
theorem stageInternalCallArgs_agrees (tracker : StackTracker) (func : FunctionDef)
    (stack : List U256) (above : Nat) (hnames : (func.parameters.map (·.name)).Nodup)
    (husize : func.parameters.length + above < 2 ^ 64) :
    StagesArguments tracker func stack above := by
  refine ⟨stageInternalCallArgs tracker (some func) (some stack) above,
    stageInternalCallArgsUsize_eq tracker func stack husize, fun hlong => ?_,
    fun hpos hshort => ?_⟩
  · rw [stageInternalCallArgs_of_le tracker hlong]
    refine ⟨by simp only [List.extract_eq_take_drop, List.length_take, List.length_drop]; omega,
      rfl, ?_⟩
    rintro ⟨param, word⟩ he
    obtain ⟨i, hi⟩ := List.mem_iff_getElem?.mp he
    rw [List.getElem?_zip_eq_some] at hi
    obtain ⟨hparam, hword⟩ := hi
    have hlt : i < func.parameters.length := (List.getElem?_eq_some_iff.mp hparam).1
    have hname : (func.parameters.map (·.name))[i]? = some param.name := by
      rw [List.getElem?_map, hparam]
      rfl
    have hfit : (func.parameters.map (·.name)).length ≤ stack.length - above := by
      rw [List.length_map]
      omega
    rw [StackTracker.getVariableValue_seedTopLabels tracker hfit hnames hname, ← hword,
      List.length_map, List.getElem?_take_of_lt (by omega), List.extract_eq_take_drop,
      List.getElem?_take_of_lt (by omega), List.getElem?_drop, Nat.sub_right_comm]
  · rw [stageInternalCallArgs_of_lt tracker hpos hshort]
    exact ⟨rfl, fun slot hslot => List.eq_of_mem_replicate hslot⟩

/-- A function of one parameter, for samples. -/
def oneParameter : FunctionDef :=
  { name := "f", src := ⟨0, 1, 0⟩,
    parameters := [{ name := "x", typeName := "uint256", src := ⟨0, 1, 0⟩, declarationOffset := 0 }] }

/-- `[ret, 5, target]`: `x` is staged as 5. -/
theorem stageInternalCallArgs_agrees_one :
    StagesArguments .new oneParameter [1, 5, 9] 1 ∧ oneParameter.parameters.length + 1 < 2 ^ 64 :=
  ⟨stageInternalCallArgs_agrees .new oneParameter [1, 5, 9] 1 (by decide) (by decide), by decide⟩

/-- One parameter below `2 ^ 64 - 1` items: the sum wraps to zero, the guard passes,
and the empty stack is indexed. -/
theorem stageInternalCallArgs_wraps :
    (oneParameter.parameters.map (·.name)).Nodup ∧
      ¬ StagesArguments .new oneParameter [] (2 ^ 64 - 1) := by
  have hpanic : stageInternalCallArgsUsize .new (some oneParameter) (some []) (2 ^ 64 - 1) =
      none := by
    decide
  refine ⟨by decide, ?_⟩
  rintro ⟨staged, hstaged, -⟩
  exact absurd (hpanic.symm.trans hstaged) (Option.some_ne_none staged).symm

/-! ## §5  Parameters of two words -/

/-- How a parameter is passed: in one word, or, for calldata arrays, bytes and
strings, as offset and length. -/
inductive Passing where
  | oneWord
  | offsetAndLength
deriving DecidableEq, Repr

def Passing.words : Passing → Nat
  | .oneWord => 1
  | .offsetAndLength => 2

/-- Words of a list of parameters. -/
def wordCount (signature : List (VarDecl × Passing)) : Nat :=
  (signature.map fun p => p.2.words).sum

@[simp] theorem wordCount_cons (p : VarDecl × Passing) (signature : List (VarDecl × Passing)) :
    wordCount (p :: signature) = p.2.words + wordCount signature := by
  simp [wordCount]

theorem wordCount_append (xs ys : List (VarDecl × Passing)) :
    wordCount (xs ++ ys) = wordCount xs + wordCount ys := by
  simp [wordCount]

theorem one_le_words (passing : Passing) : 1 ≤ passing.words := by
  cases passing <;> decide

theorem length_le_wordCount : ∀ signature, signature.length ≤ wordCount signature
  | [] => Nat.le_refl 0
  | p :: signature => by
      have ih := length_le_wordCount signature
      have hp := one_le_words p.2
      rw [wordCount_cons, List.length_cons]
      omega

/-- There are as many words as parameters only when each takes one. -/
theorem wordCount_eq_length_iff : ∀ signature : List (VarDecl × Passing),
    wordCount signature = signature.length ↔ ∀ p ∈ signature, p.2 = .oneWord
  | [] => by simp [wordCount]
  | (param, passing) :: signature => by
      have ih := wordCount_eq_length_iff signature
      have hle := length_le_wordCount signature
      rw [wordCount_cons, List.length_cons, List.forall_mem_cons, ← ih]
      cases passing with
      | oneWord => simp [Passing.words, Nat.add_comm]
      | offsetAndLength =>
          simp only [Passing.words, reduceCtorEq, false_and, iff_false]
          omega

/-- Each parameter's words have the length its passing asks for. -/
def WordsOf (signature : List (VarDecl × Passing)) (words : List (List U256)) : Prop :=
  List.Forall₂ (fun p ws => ws.length = p.2.words) signature words

theorem length_flatten_wordsOf {signature : List (VarDecl × Passing)}
    {words : List (List U256)} (h : WordsOf signature words) :
    words.flatten.length = wordCount signature := by
  induction h with
  | nil => rfl
  | cons hws _ ih =>
      rw [List.flatten_cons, List.length_append, hws, ih, wordCount_cons]

/-- A one-word parameter's word stands behind the words of the parameters
before it. -/
theorem getElem?_flatten_wordsOf {signature : List (VarDecl × Passing)}
    {words : List (List U256)} (h : WordsOf signature words) {i : Nat} {param : VarDecl}
    (hi : signature[i]? = some (param, .oneWord)) :
    ∃ w, words[i]? = some [w] ∧ words.flatten[wordCount (signature.take i)]? = some w := by
  induction h generalizing i with
  | nil => simp at hi
  | @cons p ws signature words hws hrest ih =>
      cases i with
      | zero =>
          obtain rfl : p = (param, .oneWord) := by simpa using hi
          obtain ⟨w, rfl⟩ := List.length_eq_one_iff.mp hws
          exact ⟨w, rfl, by simp [wordCount]⟩
      | succ i =>
          obtain ⟨w, hw, hflat⟩ := ih (by simpa using hi)
          refine ⟨w, by simpa using hw, ?_⟩
          have hcount : wordCount ((p :: signature).take (i + 1)) =
              ws.length + wordCount (signature.take i) := by
            rw [List.take_succ_cons, wordCount_cons, hws]
          rw [hcount, List.flatten_cons, List.getElem?_append_right (Nat.le_add_right _ _),
            Nat.add_sub_cancel_left, hflat]

/-- `first_param_slot + idx`: where the argument of parameter `i` is read, with
`above` items over the parameters. -/
def argumentSlot (func : FunctionDef) (stackLen above i : Nat) : Nat :=
  stackLen - (func.parameters.length + above) + i

/-- Arguments are read, and labels put, at the argument slots. -/
theorem stageInternalCallArgs_slots (tracker : StackTracker) {func : FunctionDef}
    {stack : List U256} {above : Nat} (h : func.parameters.length + above ≤ stack.length) :
    (stageInternalCallArgs tracker (some func) (some stack) above).2 =
      func.parameters.zipIdx.flatMap (fun e =>
        (stack[argumentSlot func stack.length above e.2]?).toList.flatMap (argEvents e.1)) ∧
    ∀ slot name, (stageInternalCallArgs tracker (some func) (some stack) above).1.slots[slot]? =
        some (some name) ↔
      ∃ i param, func.parameters[i]? = some param ∧ param.name = name ∧
        slot = argumentSlot func stack.length above i := by
  have hstart : stack.length - func.parameters.length - above =
      stack.length - (func.parameters.length + above) := by omega
  have hcount : stack.length - above - (stack.length - (func.parameters.length + above)) =
      func.parameters.length := by omega
  rw [stageInternalCallArgs_of_le tracker h]
  constructor
  · have hread := mapM_argEvents stack (stack.length - (func.parameters.length + above))
      func.parameters 0 (by omega)
    show (func.parameters.zip (stack.extract _ _)).flatMap (fun e => argEvents e.1 e.2) = _
    rw [List.extract_eq_take_drop, hstart, hcount, List.flatMap_def]
    refine (flatMap_of_mapM hread).symm.trans (List.flatMap_congr fun e _ => ?_)
    rw [argumentSlot]
    cases stack[stack.length - (func.parameters.length + above) + e.2]? <;> simp
  · intro slot name
    have hfit : (func.parameters.map (·.name)).length ≤ stack.length - above := by
      rw [List.length_map]
      omega
    rw [StackTracker.getElem?_seedTopLabels_eq_some_iff tracker hfit]
    simp only [List.getElem?_map, Option.map_eq_some_iff, List.length_map, argumentSlot,
      Nat.sub_right_comm _ above, hstart]
    constructor
    · rintro ⟨i, ⟨param, hparam, hname⟩, hslot⟩
      exact ⟨i, param, hparam, hname, hslot⟩
    · rintro ⟨i, param, hparam, hname, hslot⟩
      exact ⟨i, ⟨param, hparam, hname⟩, hslot⟩

/-- **Arguments and widths.** With the parameters' words under the jump target, the
argument and the label of a one-word parameter are at its own word exactly when
every later parameter is passed in one word. -/
theorem argumentSlot_eq_own_iff (tracker : StackTracker) (func : FunctionDef)
    (signature : List (VarDecl × Passing)) (hsignature : func.parameters = signature.map Prod.fst)
    (below : List U256) (ret target : U256) (words : List (List U256))
    (hwords : WordsOf signature words) :
    let stack := below ++ ret :: (words.flatten ++ [target])
    let staged := stageInternalCallArgs tracker (some func) (some stack) 1
    let slotOf := argumentSlot func stack.length 1
    staged.2 = func.parameters.zipIdx.flatMap (fun e =>
        (stack[slotOf e.2]?).toList.flatMap (argEvents e.1)) ∧
    (∀ slot name, staged.1.slots[slot]? = some (some name) ↔
      ∃ i param, func.parameters[i]? = some param ∧ param.name = name ∧ slot = slotOf i) ∧
    ∀ i param, signature[i]? = some (param, .oneWord) →
      let own := below.length + 1 + wordCount (signature.take i)
      (∃ w, words[i]? = some [w] ∧ stack[own]? = some w) ∧
      (slotOf i = own ↔ ∀ later ∈ signature.drop (i + 1), later.2 = .oneWord) := by
  intro stack staged slotOf
  have hlen : stack.length = below.length + wordCount signature + 2 := by
    simp only [stack, List.length_append, List.length_cons, List.length_nil,
      length_flatten_wordsOf hwords]
    omega
  have hcount : func.parameters.length = signature.length := by
    rw [hsignature, List.length_map]
  have hle := length_le_wordCount signature
  have hfit : func.parameters.length + 1 ≤ stack.length := by omega
  obtain ⟨hevents, hlabels⟩ := stageInternalCallArgs_slots tracker hfit
  refine ⟨hevents, hlabels, fun i param hi => ⟨?_, ?_⟩⟩
  · obtain ⟨w, hw, hflat⟩ := getElem?_flatten_wordsOf hwords hi
    have hlt := (List.getElem?_eq_some_iff.mp hflat).1
    refine ⟨w, hw, ?_⟩
    rw [Nat.add_assoc, List.getElem?_append_right (Nat.le_add_right _ _),
      Nat.add_sub_cancel_left, Nat.add_comm 1, List.getElem?_cons_succ,
      List.getElem?_append_left hlt, hflat]
  · -- The words from parameter `i` on are one more than those after it.
    obtain ⟨hilt, hget⟩ := List.getElem?_eq_some_iff.mp hi
    have hsplit : wordCount signature = wordCount (signature.take i) + 1 +
        wordCount (signature.drop (i + 1)) := by
      conv_lhs => rw [← List.take_append_drop i signature, List.drop_eq_getElem_cons hilt, hget]
      rw [wordCount_append, wordCount_cons, Passing.words, Nat.add_assoc]
    rw [← wordCount_eq_length_iff, List.length_drop]
    simp only [slotOf, argumentSlot, hlen, hcount, hsplit]
    omega

/-- `f(uint256 a, bytes calldata b)`. -/
def wordAndBytes : List (VarDecl × Passing) :=
  [({ name := "a", typeName := "uint256", src := ⟨10, 9, 0⟩, declarationOffset := 10 }, .oneWord),
   ({ name := "b", typeName := "bytes", src := ⟨21, 16, 0⟩, declarationOffset := 21 },
     .offsetAndLength)]

/-- `f(bytes calldata b, uint256 a)`. -/
def bytesAndWord : List (VarDecl × Passing) := wordAndBytes.reverse

def functionOf (signature : List (VarDecl × Passing)) : FunctionDef :=
  { name := "f", src := ⟨0, 60, 0⟩, parameters := signature.map Prod.fst }

/-- Behind the calldata bytes `a` is staged from its own word, slot 3. -/
theorem argumentSlot_bytesAndWord :
    WordsOf bytesAndWord [[68, 3], [7]] ∧
      argumentSlot (functionOf bytesAndWord) 5 1 1 = 0 + 1 + wordCount (bytesAndWord.take 1) := by
  have hwords : WordsOf bytesAndWord [[68, 3], [7]] := .cons rfl (.cons rfl .nil)
  exact ⟨hwords, (((argumentSlot_eq_own_iff .new (functionOf bytesAndWord) bytesAndWord rfl [] 100
    200 [[68, 3], [7]] hwords).2.2 1 _ rfl).2).mpr (by decide)⟩

/-- In front of them the argument and the label of `a` are at the offset of `b`:
68 is emitted where `a` is 7. -/
theorem argumentSlot_wordAndBytes :
    let stack : List U256 := [100, 7, 68, 3, 200]
    let staged := stageInternalCallArgs .new (some (functionOf wordAndBytes)) (some stack) 1
    WordsOf wordAndBytes [[7], [68, 3]] ∧ stack[1]? = some 7 ∧
      .arg "a" (.raw ⟨"0x44", uint256TypeId⟩) ∈ staged.2 ∧
      staged.1.slots = [none, none, some "a", some "b"] := by
  exact ⟨.cons rfl (.cons rfl .nil), rfl, by decide, by decide⟩

end EvmRecorder
