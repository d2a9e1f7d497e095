import EvmRecorder.Recorder.Calls

/-!
# The absorbed first call

Read as a word of brackets, a trace opens and closes external frames by its depth
changes and internal calls by its jump markers. On a nested word the calls and
returns registered are the word without the first internal call and its return:
one counter of internal calls, shared by all frames, finds the right return
because the frames in between are closed before it.
-/

namespace EvmRecorder

open Brackets

/-! ## §1  The word of a trace -/

/-- One bracket per level entered or left. -/
def depthWord (prevDepth depth : Nat) : List (Paren FrameKind) :=
  List.replicate (depth - prevDepth) (.opening .external) ++
    List.replicate (prevDepth - depth) (.closing .external)

def markerWord : JumpType → List (Paren FrameKind)
  | .into => [.opening .internal]
  | .outOf => [.closing .internal]
  | .regular => []

def callWord : Nat → List (Nat × JumpType) → List (Paren FrameKind)
  | _, [] => []
  | prevDepth, log :: logs => depthWord prevDepth log.1 ++ markerWord log.2 ++ callWord log.1 logs

/-- A trace with the markers of its source map, resolved or not. -/
def sourceTrace (a : Artifacts) (structLogs : List StructLog) : List (Nat × JumpType) :=
  structLogs.map fun log => (log.depth, sourceMarker a log)

theorem callTrace_eq_sourceTrace {a : Artifacts} {structLogs : List StructLog}
    (h : ∀ log ∈ structLogs, (a.resolvePc log.pc).isSome) :
    callTrace a structLogs = sourceTrace a structLogs :=
  List.map_congr_left fun log hlog => by rw [processedMarker, if_pos (h log hlog)]

/-! ## §2  The call machine on words -/

/-- The calls and returns registered for a word. -/
def absorbWord : Absorption → List (Paren FrameKind) → List CallEvent
  | _, [] => []
  | s, b :: w => (s.step b).2 ++ absorbWord (s.step b).1 w

theorem absorbWord_external (s : Absorption) (b : Paren FrameKind) (w : List (Paren FrameKind))
    (hb : b = .opening .external ∨ b = .closing .external) (n : Nat) :
    absorbWord s (List.replicate n b ++ w) =
      List.replicate n (CallEvent.ofParen b) ++ absorbWord s w := by
  induction n with
  | zero => rfl
  | succ n ih =>
      rw [List.replicate_succ, List.cons_append, List.replicate_succ, List.cons_append, ← ih]
      rcases hb with rfl | rfl <;> rfl

theorem absorbWord_depthWord (s : Absorption) {prevDepth depth : Nat}
    (hrise : depth ≤ prevDepth + 1) (w : List (Paren FrameKind)) :
    absorbWord s (depthWord prevDepth depth ++ w) =
      depthCalls prevDepth depth ++ absorbWord s w := by
  rw [depthWord, List.append_assoc, absorbWord_external s _ _ (.inl rfl),
    absorbWord_external s _ _ (.inr rfl), depthCalls]
  split
  · next h =>
      have hone : depth - prevDepth = 1 := by omega
      rw [hone, Nat.sub_eq_zero_of_le (Nat.le_of_lt h)]
      rfl
  · next h =>
      rw [Nat.sub_eq_zero_of_le (Nat.le_of_not_lt h)]
      rfl

theorem absorbWord_markerWord (s : Absorption) (marker : JumpType)
    (w : List (Paren FrameKind)) :
    absorbWord s (markerWord marker ++ w) =
      (markerStep marker s).2 ++ absorbWord (markerStep marker s).1 w := by
  cases marker <;> rfl

/-- With rises of at most one level the call machine reads the trace's word. -/
theorem run_callStep_eq_absorbWord : ∀ (logs : List (Nat × JumpType)) (i : Nat) (s : CallState),
    (s.prevDepth :: logs.map (·.1)).IsChain (fun d d' => d' ≤ d + 1) →
      (Machine.run callStep i logs s).2 = absorbWord s.absorption (callWord s.prevDepth logs)
  | [], _, _, _ => rfl
  | log :: logs, i, s, hchain => by
      rw [List.map_cons, List.isChain_cons_cons] at hchain
      have ih := run_callStep_eq_absorbWord logs (i + 1) (callStep i log s).1 hchain.2
      rw [callWord, List.append_assoc, absorbWord_depthWord s.absorption hchain.1,
        absorbWord_markerWord]
      simp only [Machine.run, ih]
      simp only [callStep, List.append_assoc]

/-! ## §3  Nested words -/

/-- Once the absorbed call has returned, every bracket is registered. -/
theorem absorbWord_after (w : List (Paren FrameKind)) :
    absorbWord ⟨true, 0⟩ w = w.map CallEvent.ofParen := by
  induction w with
  | nil => rfl
  | cons b w ih =>
      rw [List.map_cons, ← ih]
      rcases b with (_ | _) | (_ | _) <;> rfl

/-- Inside the absorbed call, below brackets `stack`: the counter is one more
than the internal calls of `stack`, so it gets to zero where the absorbed call is
the innermost open bracket. -/
theorem absorbWord_inside : ∀ (w : List (Paren FrameKind)) (stack outer : List FrameKind),
    (openAfter (stack ++ .internal :: outer) w).isSome →
      absorbWord ⟨true, stack.count .internal + 1⟩ w =
        (dropPartner stack.length w).map CallEvent.ofParen
  | [], stack, outer, _ => rfl
  | .opening k :: w, stack, outer, h => by
      have ih := absorbWord_inside w (k :: stack) outer h
      rw [dropPartner, List.map_cons, List.length_cons] at *
      rw [← ih]
      cases k with
      | external => rfl
      | internal => simp [absorbWord, Absorption.step, CallEvent.ofParen]
  | .closing k :: w, [], outer, h => by
      obtain ⟨stack', hstack, -⟩ := openAfter_closing h
      obtain ⟨rfl, rfl⟩ : FrameKind.internal = k ∧ outer = stack' := by simpa using hstack
      rw [List.length_nil, dropPartner, ← absorbWord_after]
      rfl
  | .closing k :: w, k' :: stack, outer, h => by
      obtain ⟨stack', hstack, hrest⟩ := openAfter_closing h
      obtain ⟨rfl, rfl⟩ : k' = k ∧ stack ++ .internal :: outer = stack' := by simpa using hstack
      have ih := absorbWord_inside w stack outer hrest
      rw [List.length_cons, dropPartner, List.map_cons, ← ih]
      cases k' with
      | external => rfl
      | internal => simp [absorbWord, Absorption.step, CallEvent.ofParen]

/-- Before the first internal call no internal call is open. -/
theorem absorbWord_nested : ∀ (w : List (Paren FrameKind)) (stack : List FrameKind),
    .internal ∉ stack → (openAfter stack w).isSome →
      absorbWord {} w = (dropFirst .internal w).map CallEvent.ofParen
  | [], _, _, _ => rfl
  | .opening .internal :: w, stack, _, h => by
      have hinside := absorbWord_inside w [] stack h
      rw [dropFirst, if_pos rfl]
      exact hinside
  | .opening .external :: w, stack, hstack, h => by
      have ih := absorbWord_nested w (.external :: stack) (by simpa using hstack) h
      rw [dropFirst, if_neg (by decide), List.map_cons, ← ih]
      rfl
  | .closing k :: w, stack, hstack, h => by
      obtain ⟨stack', rfl, hrest⟩ := openAfter_closing h
      obtain ⟨hk, hstack'⟩ : .internal ≠ k ∧ .internal ∉ stack' := by
        simpa [List.mem_cons, not_or] using hstack
      have ih := absorbWord_nested w stack' hstack' hrest
      rw [dropFirst, if_neg (by simp), List.map_cons, ← ih]
      cases k with
      | external => rfl
      | internal => exact absurd rfl hk

namespace Recorder

/-- The calls and returns of a recording are the word of its trace without the
first internal call and its return. -/
theorem calls_eq_dropFirst (keccak256 : List UInt8 → U256) (registered : List Path)
    (a : Artifacts) (structLogs : List StructLog)
    (hresolve : ∀ log ∈ structLogs, (a.resolvePc log.pc).isSome)
    (hdepths : LegalDepths (structLogs.map (·.depth)))
    (hnested : Nested (callWord 1 (sourceTrace a structLogs))) :
    (recordFromStructlog keccak256 registered a structLogs).filterMap TraceEvent.callEvent =
      (dropFirst .internal (callWord 1 (sourceTrace a structLogs))).map CallEvent.ofParen := by
  have hdepth : (sourceTrace a structLogs).map (·.1) = structLogs.map (·.depth) := by
    rw [sourceTrace, List.map_map]
    rfl
  have hword := run_callStep_eq_absorbWord (sourceTrace a structLogs) 0 {}
    (by rw [hdepth]; exact hdepths.chain_one)
  rw [callEvents_recordFromStructlog, callTrace_eq_sourceTrace hresolve, hword]
  exact absorbWord_nested _ [] (by simp) hnested

/-- The first call is made inside an external frame and calls once itself; after
it an internal call of the outermost frame. -/
def nestedSample : List StructLog :=
  [sampleLog 1 3, sampleLog 2 1, sampleLog 2 1, sampleLog 2 2, sampleLog 2 2, sampleLog 2 4,
    sampleLog 1 1, sampleLog 1 2]

theorem calls_eq_dropFirst_nestedSample :
    (recordFromStructlog (fun _ => 0) [] sampleArtifacts nestedSample).filterMap
      TraceEvent.callEvent = [.call, .call, .ret, .ret, .call, .ret] :=
  (calls_eq_dropFirst (fun _ => 0) [] sampleArtifacts nestedSample (by decide) (by decide)
    (by decide)).trans (by decide)

end Recorder

end EvmRecorder
