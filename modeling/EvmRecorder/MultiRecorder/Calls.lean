import EvmRecorder.MultiRecorder.CallSites
import EvmRecorder.MultiRecorder.Events
import EvmRecorder.MultiRecorder.LocalParity
import EvmRecorder.MultiRecorder.Lockstep
import EvmRecorder.Recorder.FirstCall

/-!
# Calls and returns of the multi-contract recorder

No call is absorbed here: every depth change and every marker that is handled, with
the source map of the executing contract, is registered. So while the brackets of
the trace are nested, the calls that are open are the entered frames and the internal
calls in them.
-/

namespace EvmRecorder.MultiRecorder

open Brackets

/-! ## §1  Words -/

theorem weight_ofParen (b : Paren FrameKind) : (CallEvent.ofParen b).weight = b.sign := by
  cases b <;> rfl

theorem balance_ofParen (w : List (Paren FrameKind)) :
    balance (w.map CallEvent.ofParen) = (w.map Paren.sign).sum := by
  rw [balance, List.map_map]
  exact congrArg List.sum (List.map_congr_left fun b _ => weight_ofParen b)

/-- The depth after a trace that begins at depth `p`. -/
def lastDepth (p : Nat) (logs : List (Nat × JumpType)) : Nat := (logs.getLast?.map Prod.fst).getD p

theorem lastDepth_cons (p : Nat) (log : Nat × JumpType) (logs : List (Nat × JumpType)) :
    lastDepth p (log :: logs) = lastDepth log.1 logs := by
  cases logs with
  | nil => rfl
  | cons log' logs =>
      rw [lastDepth, lastDepth, List.getLast?_cons_cons]
      rw [List.getLast?_eq_some_getLast (List.cons_ne_nil log' logs)]
      rfl

theorem callWord_snoc (log : Nat × JumpType) : ∀ (p : Nat) (logs : List (Nat × JumpType)),
    callWord p (logs ++ [log]) =
      callWord p logs ++ (depthWord (lastDepth p logs) log.1 ++ markerWord log.2)
  | p, [] => by
      rw [List.nil_append, callWord, callWord, callWord, List.append_nil]
      rfl
  | p, log' :: logs => by
      rw [List.cons_append, callWord, callWord, callWord_snoc log log'.1 logs, lastDepth_cons,
        List.append_assoc, List.append_assoc, List.append_assoc]

/-- The external brackets of a word lead from the first depth to the last. -/
theorem sum_external_callWord : ∀ (p : Nat) (logs : List (Nat × JumpType)),
    (((callWord p logs).filter fun b => b.kind = .external).map Paren.sign).sum =
      (lastDepth p logs : ℤ) - p
  | p, [] => (sub_self _).symm
  | p, log :: logs => by
      have hmarker : (markerWord log.2).filter (fun b => b.kind = .external) = [] := by
        cases log.2 <;> rfl
      have hdepth : (((depthWord p log.1).filter fun b => b.kind = .external).map
          Paren.sign).sum = (log.1 : ℤ) - p := by
        simp only [depthWord, List.filter_append, List.filter_replicate, Paren.kind, decide_true,
          if_true, List.map_append, List.map_replicate, Paren.sign, List.sum_append,
          List.sum_replicate, nsmul_eq_mul]
        omega
      rw [callWord, List.filter_append, List.filter_append, hmarker, List.append_nil,
        List.map_append, List.sum_append, hdepth, sum_external_callWord log.1 logs, lastDepth_cons]
      omega

theorem ofParen_depthWord {p d : Nat} (hrise : d ≤ p + 1) :
    (depthWord p d).map CallEvent.ofParen = depthCalls p d := by
  have h := absorbWord_depthWord ⟨true, 0⟩ hrise []
  rw [absorbWord_after, List.map_append, absorbWord_after] at h
  simpa using h

/-! ## §2  One log -/

theorem callEvents_depthEvents (mainPath : Path) (log : StructLog) (s : MultiRecorderState) :
    (depthEvents mainPath log s).filterMap TraceEvent.callEvent =
      depthCalls s.prevDepth log.depth := by
  unfold depthEvents depthCalls
  split
  · rfl
  · exact List.filterMap_replicate_of_some rfl

theorem callEvents_handleJump (mainPath : Path) (structLogs : List StructLog) (a : Artifacts)
    (i : Nat) (log : StructLog) (loc : SourceLocation) (s : MultiRecorderState) :
    (handleJump mainPath structLogs a i log loc s).2.filterMap TraceEvent.callEvent =
      (markerWord (sourceMarker a log)).map CallEvent.ofParen := by
  unfold handleJump sourceMarker
  cases (a.entryForPc log.pc).map (·.jumpType) with
  | none => rfl
  | some marker =>
      cases marker with
      | into =>
          dsimp only
          rw [enterInternalCall, List.filterMap_append, List.filterMap_append,
            Recorder.callEvents_eq_nil (issues_stageInternalCallArgs _ _ _ _) (by decide)
              (by decide)]
          rfl
      | outOf => rfl
      | regular => rfl

theorem callEvents_handleLocation (mainPath : Path) (structLogs : List StructLog) (a : Artifacts)
    (i : Nat) (log : StructLog) (s : MultiRecorderState) :
    (handleLocation mainPath structLogs a i log s).2.filterMap TraceEvent.callEvent =
      (markerWord (processedMarker a log)).map CallEvent.ofParen := by
  unfold handleLocation processedMarker
  cases a.resolvePc log.pc with
  | none => rfl
  | some loc =>
      dsimp only [atLocation, Option.isSome_some]
      rw [if_pos rfl, List.filterMap_append, List.filterMap_append,
        Recorder.callEvents_eq_nil (issues_emitStep _ _ _ _ _ _) (by decide) (by decide),
        Recorder.callEvents_eq_nil (issues_localEvents _) (by decide) (by decide),
        List.nil_append, List.nil_append]
      exact callEvents_handleJump _ _ _ _ _ _ _

/-! ## §3  Recordings -/

section Runs

variable (keccak256 : List UInt8 → U256) (registered : List Path) (registry : ContractRegistry)
  (contractAddress : Address) (structLogs : List StructLog)

/-- The depths of a trace, with the markers that are handled with the source map of
the executing contract. -/
def handledTrace : List (Nat × JumpType) :=
  structLogs.mapIdx fun k log =>
    (log.depth, processedMarker (codeAt contractAddress structLogs registry k) log)

variable {keccak256 registered registry contractAddress structLogs}

theorem getElem?_handledTrace {k : Nat} {log : StructLog} (hlog : structLogs[k]? = some log) :
    (handledTrace registry contractAddress structLogs)[k]? =
      some (log.depth, processedMarker (codeAt contractAddress structLogs registry k) log) := by
  rw [handledTrace, List.getElem?_mapIdx, hlog]
  rfl

theorem lastDepth_handledTrace {k : Nat} (hk : k ≤ structLogs.length) :
    lastDepth 1 ((handledTrace registry contractAddress structLogs).take k) =
      (stateBefore keccak256 registered registry contractAddress structLogs k).prevDepth := by
  cases k with
  | zero =>
      rw [stateBefore, Machine.stateBefore_zero]
      rfl
  | succ k =>
      have hlog : structLogs[k]? = some structLogs[k] := List.getElem?_eq_getElem hk
      rw [prevDepth_stateBefore_succ keccak256 registered registry contractAddress hlog,
        List.take_add_one, getElem?_handledTrace hlog, lastDepth, Option.toList_some,
        List.getLast?_concat]
      rfl

/-- Each log adds the brackets of its depth change and of its marker. -/
theorem callEvents_eventsBefore (hdepths : LegalDepths (structLogs.map (·.depth))) :
    ∀ k, k ≤ structLogs.length →
      (eventsBefore keccak256 registered registry contractAddress structLogs k).filterMap
          TraceEvent.callEvent =
        (callWord 1 ((handledTrace registry contractAddress structLogs).take k)).map
          CallEvent.ofParen
  | 0, _ => by
      rw [eventsBefore, Machine.outputBefore_zero, List.append_nil,
        Recorder.callEvents_eq_nil (Recorder.issues_preamble _ _) (by decide) (by decide)]
      rfl
  | k + 1, hk => by
      have hlog : structLogs[k]? = some structLogs[k] := List.getElem?_eq_getElem hk
      have hbefore := @entriesBefore_stateBefore keccak256 registered registry contractAddress
        structLogs hdepths k (Nat.le_of_lt hk)
      have hrise := (hdepths.rise hbefore.depth (getElem?_depths hlog)).2
      have hstep : (stepOf keccak256 registry contractAddress structLogs k structLogs[k]
          (stateBefore keccak256 registered registry contractAddress structLogs k)).2.filterMap
            TraceEvent.callEvent =
          depthCalls (stateBefore keccak256 registered registry contractAddress
              structLogs k).prevDepth structLogs[k].depth ++
            (markerWord (processedMarker (codeAt contractAddress structLogs registry k)
              structLogs[k])).map CallEvent.ofParen := by
        obtain ⟨located, post, rfl, hpost, hevents⟩ := stepOf_events keccak256 registry
          contractAddress structLogs k structLogs[k]
          (stateBefore keccak256 registered registry contractAddress structLogs k)
        have hcode : artifactsFor registry contractAddress structLogs k structLogs[k]
            (stateBefore keccak256 registered registry contractAddress structLogs k) =
              codeAt contractAddress structLogs registry k := artifactsAt_eq_codeAt hlog
        rw [hevents, List.filterMap_append, List.filterMap_append, callEvents_depthEvents,
          callEvents_handleLocation, hcode,
          Recorder.callEvents_eq_nil hpost (by decide) (by decide), List.append_nil]
      rw [eventsBefore_succ keccak256 registered registry contractAddress structLogs hlog,
        List.filterMap_append, callEvents_eventsBefore hdepths k (Nat.le_of_lt hk), hstep,
        List.take_add_one, getElem?_handledTrace hlog, Option.toList_some, callWord_snoc,
        lastDepth_handledTrace (Nat.le_of_lt hk), List.map_append, List.map_append,
        ofParen_depthWord hrise]

end Runs

/-- **Open calls.** The calls and returns registered before log `k` are the brackets of
the first `k` logs. While these are nested, the open calls are the brackets that are
open: one for each entered frame, and the internal calls in them. -/
theorem openCalls_nested (keccak256 : List UInt8 → U256) (registered : List Path)
    (registry : ContractRegistry) (contractAddress : Address) {structLogs : List StructLog}
    (hdepths : LegalDepths (structLogs.map (·.depth))) {k : Nat} (hk : k ≤ structLogs.length) :
    let word := callWord 1 ((handledTrace registry contractAddress structLogs).take k)
    let events := eventsBefore keccak256 registered registry contractAddress structLogs k
    events.filterMap TraceEvent.callEvent = word.map CallEvent.ofParen ∧
      ∀ opened, openAfter [] word = some opened →
        openCalls events = opened.length ∧
          ∀ d, DepthBefore (structLogs.map (·.depth)) k d → opened.count .external + 1 = d := by
  intro word events
  have hevents : events.filterMap TraceEvent.callEvent = word.map CallEvent.ofParen :=
    callEvents_eventsBefore hdepths k hk
  refine ⟨hevents, fun opened hopened => ⟨?_, fun d hd => ?_⟩⟩
  · have hlength := length_openAfter hopened
    rw [openCalls, hevents, balance_ofParen, hlength, List.length_nil]
    omega
  · have hcount := count_openAfter (k := .external) hopened
    have hbefore := @entriesBefore_stateBefore keccak256 registered registry contractAddress
      structLogs hdepths k hk
    have hsame : d = (stateBefore keccak256 registered registry contractAddress
      structLogs k).prevDepth := Option.some.inj (hd.symm.trans hbefore.depth)
    rw [sum_external_callWord, @lastDepth_handledTrace keccak256 registered registry
      contractAddress structLogs k hk, ← hsame, List.count_nil] at hcount
    omega

def sampleContract : ContractArtifacts where
  sourceMap := SourceMap.parse "0:8:0:-;:::i;:::o;:::-;"
  runtimeBytecode := [0x5b, 0x56, 0x56, 0xf1, 0xfd]
  pcToIdx := [0, 1, 2, 3, 4]
  sourcePaths := [⟨["C.sol"]⟩]
  sourceContents := ["contract C \x7b\x7d"]

/-- A call from inside a function, into a function of the callee. -/
def callInCall : List StructLog :=
  [sampleLog 1 0, sampleLog 1 1, sampleLog 1 3, sampleLog 2 1, sampleLog 2 2, sampleLog 1 2]

theorem openCalls_nested_callInCall :
    openCalls (eventsBefore (fun _ => 0) [] { contracts := [(0, sampleContract)] } 0
      callInCall 4) = 3 := by
  have hlegal : LegalDepths (callInCall.map (·.depth)) := by decide
  have hopened : openAfter [] (callWord 1
      ((handledTrace { contracts := [(0, sampleContract)] } 0 callInCall).take 4)) =
        some [.internal, .external, .internal] := by decide +kernel
  exact ((openCalls_nested (fun _ => 0) [] _ 0 hlegal (by decide)).2 _ hopened).1

end EvmRecorder.MultiRecorder
