import EvmRecorder.MultiRecorder.Links
import EvmRecorder.MultiRecorder.Lockstep

/-!
# The call tree mirrors the frames

One node below the root for each frame that is entered, in the order in which
they are entered. The path of the tree leads through the frames that are open,
so a new node is placed under the frame that makes the call and a node is closed
at the first log below its depth.
-/

namespace EvmRecorder

open Levels Stack

/-! ## §1  Frames of a trace -/

/-- The kind of call an opcode makes. -/
def CallType.ofOpcode (op : String) : CallType :=
  if op = "DELEGATECALL" then .delegateCall
  else if op = "STATICCALL" then .staticCall
  else if op = "CREATE" then .create
  else if op = "CREATE2" then .create2
  else .call

section Frames

variable (depths : List Nat)

/-- The depth rises at log `k`. -/
def risesAt (k : Nat) : Bool :=
  match (1 :: depths)[k]?, depths[k]? with
  | some p, some d => p < d
  | _, _ => false

/-- The rises before log `n`, in trace order. -/
def rises (n : Nat) : List Nat := (List.range n).filter (risesAt depths)

/-- The frame at depth `d` before log `k` was entered at log `j`. -/
structure OpenedAt (d j k : Nat) : Prop where
  before : j < k
  depth : depths[j]? = some d
  first : j = 0 ∨ risesAt depths j = true
  stays : ∀ i e, j ≤ i → i < k → depths[i]? = some e → d ≤ e

/-- The first log before `n` below depth `d` after log `i`, zero if there is none. -/
def StopsAt (n d i stop : Nat) : Prop :=
  (stop = 0 ∧ ∀ e x, i < e → e < n → depths[e]? = some x → d ≤ x) ∨
    (i < stop ∧ stop < n ∧ (∃ x, depths[stop]? = some x ∧ x < d) ∧
      ∀ e x, i < e → e < stop → depths[e]? = some x → d ≤ x)

variable {depths}

theorem risesAt_iff {k : Nat} :
    risesAt depths k = true ↔
      ∃ p d, DepthBefore depths k p ∧ depths[k]? = some d ∧ p < d := by
  unfold risesAt DepthBefore
  cases (1 :: depths)[k]? with
  | none => simp
  | some p =>
      cases depths[k]? with
      | none => simp
      | some d => simp

theorem risesAt_of_rise {k p d : Nat} (hp : DepthBefore depths k p) (hd : depths[k]? = some d)
    (h : p < d) : risesAt depths k = true :=
  risesAt_iff.mpr ⟨p, d, hp, hd, h⟩

theorem risesAt_of_le {k p d : Nat} (hp : DepthBefore depths k p) (hd : depths[k]? = some d)
    (h : d ≤ p) : risesAt depths k = false := by
  rw [DepthBefore] at hp
  simp [risesAt, hp, hd, h]

theorem rises_succ (k : Nat) :
    rises depths (k + 1) = rises depths k ++ if risesAt depths k then [k] else [] := by
  rw [rises, List.range_succ, List.filter_append, ← rises, List.filter_singleton,
    Bool.cond_eq_ite]

/-- A frame stays open while no log is below its depth. -/
theorem OpenedAt.succ {d j k e : Nat} (h : OpenedAt depths d j k) (he : depths[k]? = some e)
    (hle : d ≤ e) : OpenedAt depths d j (k + 1) where
  before := Nat.lt_succ_of_lt h.before
  depth := h.depth
  first := h.first
  stays := by
    intro i x hji hik hx
    rcases Nat.lt_succ_iff_lt_or_eq.mp hik with hik | rfl
    · exact h.stays i x hji hik hx
    · rw [he] at hx
      cases hx
      exact hle

theorem OpenedAt.self {d k : Nat} (hd : depths[k]? = some d)
    (hfirst : k = 0 ∨ risesAt depths k = true) : OpenedAt depths d k (k + 1) where
  before := Nat.lt_succ_self k
  depth := hd
  first := hfirst
  stays := by
    intro i e hki hik he
    obtain rfl : i = k := by omega
    rw [hd] at he
    cases he
    exact le_rfl

/-- The frame before a log is no deeper than the log before it. -/
theorem OpenedAt.le_depthBefore {d j k p : Nat} (h : OpenedAt depths d j k)
    (hp : DepthBefore depths k p) : d ≤ p := by
  cases k with
  | zero => exact absurd h.before (Nat.not_lt_zero j)
  | succ k => exact h.stays k p (Nat.le_of_lt_succ h.before) (Nat.lt_succ_self k) hp

/-- There is one open frame at each depth. -/
theorem OpenedAt.unique {d j j' k : Nat} (h : OpenedAt depths d j k)
    (h' : OpenedAt depths d j' k) : j = j' := by
  -- a rise after the other frame was entered would start below its depth
  have hnot : ∀ {i i' : Nat}, OpenedAt depths d i k → OpenedAt depths d i' k → ¬ i < i' := by
    intro i i' hi hi' hlt
    rcases hi'.first with rfl | hrise
    · exact Nat.not_lt_zero i hlt
    · obtain ⟨p, e, hp, he, hpe⟩ := risesAt_iff.mp hrise
      rw [hi'.depth] at he
      cases he
      cases i' with
      | zero => exact Nat.not_lt_zero i hlt
      | succ i' =>
          have hbelow := hi.stays i' p (Nat.le_of_lt_succ hlt)
            (Nat.lt_of_succ_lt hi'.before) hp
          exact Nat.not_le.mpr hpe hbelow
  rcases Nat.lt_trichotomy j j' with hlt | heq | hgt
  · exact absurd hlt (hnot h h')
  · exact heq
  · exact absurd hgt (hnot h' h)

/-- One more log that does not end the frame. -/
theorem StopsAt.keep {n d i stop x : Nat} (h : StopsAt depths n d i stop)
    (hx : depths[n]? = some x) (hopen : stop = 0 → d ≤ x) : StopsAt depths (n + 1) d i stop := by
  rcases h with ⟨hzero, hstays⟩ | ⟨hi, hn, hbelow, hstays⟩
  · refine .inl ⟨hzero, ?_⟩
    intro e y hie hen hy
    rcases Nat.lt_succ_iff_lt_or_eq.mp hen with hen | rfl
    · exact hstays e y hie hen hy
    · rw [hx] at hy
      cases hy
      exact hopen hzero
  · exact .inr ⟨hi, Nat.lt_succ_of_lt hn, hbelow, hstays⟩

/-- The log that ends the frame. -/
theorem OpenedAt.stopsAt {n d i x : Nat} (h : OpenedAt depths d i n) (hx : depths[n]? = some x)
    (hlt : x < d) : StopsAt depths (n + 1) d i n :=
  .inr ⟨h.before, Nat.lt_succ_self n, ⟨x, hx, hlt⟩, fun e y hie hen hy =>
    h.stays e y hie.le hen hy⟩

/-- A frame that no log has ended is open. -/
theorem StopsAt.openedAt {n d i stop : Nat} (h : StopsAt depths n d i stop) (hzero : stop = 0)
    (hin : i < n) (hd : depths[i]? = some d) (hrise : risesAt depths i = true) :
    OpenedAt depths d i n where
  before := hin
  depth := hd
  first := .inr hrise
  stays := by
    intro e y hie hen hy
    rcases h with ⟨-, hstays⟩ | ⟨hi, -⟩
    · rcases Nat.lt_or_eq_of_le hie with hie | rfl
      · exact hstays e y hie hen hy
      · rw [hd] at hy
        cases hy
        exact le_rfl
    · exact absurd hi (by omega)

end Frames

/-- What the node of the rise at log `i` records, as far as the logs before `n`
tell. -/
structure Mirrors (structLogs : List StructLog) (n : Nat) (link : Link) (i : Nat) : Prop where
  before : i < n
  rise : risesAt (structLogs.map (·.depth)) i = true
  start : link.start = i
  callType : ∃ prev, 0 < i ∧ structLogs[i - 1]? = some prev ∧ link.callType = .ofOpcode prev.op
  parent : ∃ p, DepthBefore (structLogs.map (·.depth)) i p ∧
    OpenedAt (structLogs.map (·.depth)) p link.parent i
  stop : ∃ d, (structLogs.map (·.depth))[i]? = some d ∧
    StopsAt (structLogs.map (·.depth)) n d i link.stop

/-! ## §2  One log -/

/-- The frames that are open before log `k`, outermost first, by their starts. -/
structure OpenFrames (depths : List Nat) (k : Nat) (frames : List Nat) : Prop where
  zero : k = 0 → frames = [0]
  opened : 0 < k → ∀ l s, frames[l]? = some s → OpenedAt depths (l + 1) s k

section OneLog

variable {structLogs : List StructLog} {k p d : Nat} {log : StructLog} {starts : List Nat}

/-- Rising, a frame is opened by the log; falling, the frames below its depth
stay. -/
theorem OpenFrames.succ {frames : List Nat} (h : OpenFrames (structLogs.map (·.depth)) k frames)
    (hdepths : LegalDepths (structLogs.map (·.depth)))
    (hp : DepthBefore (structLogs.map (·.depth)) k p)
    (hd : (structLogs.map (·.depth))[k]? = some d) (hlen : frames.length = p) :
    OpenFrames (structLogs.map (·.depth)) (k + 1) (resize d k frames) where
  zero := fun hk => absurd hk (Nat.succ_ne_zero k)
  opened := by
    intro _ l s hs
    obtain ⟨-, hrise⟩ := hdepths.rise hp hd
    have hl : l < d := by
      have := (List.getElem?_eq_some_iff.mp hs).1
      rwa [length_resize] at this
    rcases Nat.lt_or_ge l frames.length with hold | hnew
    · rw [getElem?_resize_of_lt hl hold] at hs
      rcases Nat.eq_zero_or_pos k with rfl | hk
      · -- the outermost frame is opened by the first log
        have hone : d = 1 := hdepths.starts d (by rw [List.head?_eq_getElem?]; exact hd)
        rw [h.zero rfl] at hs
        obtain rfl : l = 0 := by omega
        obtain rfl : 0 = s := Option.some.inj hs
        rw [hone] at hd
        exact .self hd (.inl rfl)
      · exact (h.opened hk l s hs).succ hd hl
    · rw [getElem?_resize_of_ge hl hnew] at hs
      obtain rfl : k = s := Option.some.inj hs
      have hlast : l + 1 = d := by omega
      rw [hlast]
      exact .self hd (.inr (risesAt_of_rise hp hd (by omega)))

/-- The links of the frames that a log leaves are closed by it, the others are
not. -/
theorem Mirrors.closeIn {link : Link} {i : Nat} (h : Mirrors structLogs k link i)
    (hp : DepthBefore (structLogs.map (·.depth)) k p)
    (hd : (structLogs.map (·.depth))[k]? = some d) (hpos : 1 ≤ d) (hlen : starts.length + 1 = p)
    (hopen : OpenFrames (structLogs.map (·.depth)) k (0 :: starts)) :
    Mirrors structLogs (k + 1) (link.closeIn (starts.drop (d - 1)) k) i := by
  have hopened := hopen.opened (Nat.zero_lt_of_lt h.before)
  obtain ⟨e, he, hstop⟩ := h.stop
  by_cases hmem : link.start ∈ starts.drop (d - 1)
  · rw [Link.closeIn, if_pos hmem]
    refine ⟨Nat.lt_succ_of_lt h.before, h.rise, h.start, h.callType, h.parent, e, he, ?_⟩
    obtain ⟨m, hm⟩ := List.getElem?_of_mem hmem
    rw [List.getElem?_drop, h.start] at hm
    have hframe := hopened (d - 1 + m + 1) i (by rw [List.getElem?_cons_succ]; exact hm)
    have hdepth := hframe.depth
    rw [he] at hdepth
    obtain rfl : e = d - 1 + m + 1 + 1 := Option.some.inj hdepth
    exact hframe.stopsAt hd (by omega)
  · rw [Link.closeIn, if_neg hmem]
    refine ⟨Nat.lt_succ_of_lt h.before, h.rise, h.start, h.callType, h.parent, e, he, ?_⟩
    refine hstop.keep hd fun hzero => ?_
    -- an open frame deeper than the log is one of those it leaves
    by_contra hdeep
    have hframe := hstop.openedAt hzero h.before he h.rise
    have hle := hframe.le_depthBefore hp
    have hlt : e - 1 < (0 :: starts).length := by
      rw [List.length_cons]
      omega
    have hs := List.getElem?_eq_getElem hlt
    have hsame := (hopened (e - 1) _ hs)
    rw [Nat.sub_add_cancel (by omega)] at hsame
    rw [hsame.unique hframe] at hs
    obtain ⟨m, hm⟩ : ∃ m, e - 1 = d - 1 + m + 1 := ⟨e - d - 1, by omega⟩
    rw [hm, List.getElem?_cons_succ, ← List.getElem?_drop] at hs
    rw [h.start] at hmem
    exact hmem (List.mem_of_getElem? hs)

theorem getElem?_getLastD (starts : List Nat) :
    (0 :: starts)[starts.length]? = some (starts.getLastD 0) := by
  have h := List.getLast?_eq_getElem? (l := 0 :: starts)
  rw [List.length_cons, Nat.add_sub_cancel] at h
  rw [← h, List.getLast?_cons, List.getLastD_eq_getLast?]

/-- The link of the frame that a log opens. -/
theorem mirrors_entered (hdepths : LegalDepths (structLogs.map (·.depth)))
    (hlog : structLogs[k]? = some log) (hp : DepthBefore (structLogs.map (·.depth)) k p)
    (hrise : p < log.depth) (hlen : starts.length + 1 = p)
    (hopen : OpenFrames (structLogs.map (·.depth)) k (0 :: starts)) :
    Mirrors structLogs (k + 1) ⟨starts.getLastD 0, k, 0,
      .ofOpcode (((MultiRecorder.prevLogOf structLogs k).map (·.op)).getD "")⟩ k := by
  have hd := getElem?_depths hlog
  obtain ⟨k, rfl⟩ : ∃ k', k = k' + 1 := by
    rcases k with _ | k
    · have hone := hdepths.starts log.depth (by rw [List.head?_eq_getElem?]; exact hd)
      obtain rfl : 1 = p := Option.some.inj hp
      omega
    · exact ⟨k, rfl⟩
  have hlt : k < structLogs.length := Nat.lt_of_succ_lt (List.getElem?_eq_some_iff.mp hlog).1
  have hprev : structLogs[k]? = some structLogs[k] := List.getElem?_eq_getElem hlt
  refine ⟨Nat.lt_succ_self _, risesAt_of_rise hp hd hrise, rfl, ⟨_, Nat.succ_pos k, hprev, ?_⟩,
    ⟨p, hp, ?_⟩, log.depth, hd, .inl ⟨rfl, fun e x hke hek _ => absurd hke (by omega)⟩⟩
  · rw [MultiRecorder.prevLogOf_succ hprev]
    rfl
  · have hframe := hopen.opened (Nat.succ_pos k) _ _ (getElem?_getLastD starts)
    rwa [hlen] at hframe

end OneLog

/-! ## §3  Runs -/

/-- The tree before log `k`; `starts` are those of the nodes on its path. -/
structure TreeBefore (structLogs : List StructLog) (k : Nat) (starts : List Nat)
    (tree : CallTree) : Prop where
  root : tree.root.start = 0
  grown : tree.Grown starts
  frames : OpenFrames (structLogs.map (·.depth)) k (0 :: starts)
  links : List.Forall₂ (Mirrors structLogs k) tree.root.links
    (rises (structLogs.map (·.depth)) k)

/-- No two links start together. -/
theorem starts_of_mirrors {structLogs : List StructLog} {n : Nat} {links : List Link}
    {indices : List Nat} (h : List.Forall₂ (Mirrors structLogs n) links indices) :
    links.map (·.start) = indices := by
  induction h with
  | nil => rfl
  | cons hmirrors _ ih => rw [List.map_cons, ih, hmirrors.start]

section TreeStep

variable {structLogs : List StructLog} {k p : Nat} {log : StructLog} {starts : List Nat}
  {tree : CallTree}

/-- At log `k` the nodes of the frames that it leaves are closed. -/
theorem TreeBefore.links_closed (h : TreeBefore structLogs k starts tree)
    (hdepths : LegalDepths (structLogs.map (·.depth))) (hlog : structLogs[k]? = some log)
    (hp : DepthBefore (structLogs.map (·.depth)) k p) (hlen : starts.length + 1 = p) :
    List.Forall₂ (Mirrors structLogs (k + 1))
      (tree.root.links.map (·.closeIn (starts.drop (log.depth - 1)) k))
      (rises (structLogs.map (·.depth)) k) := by
  have hd := getElem?_depths hlog
  exact List.forall₂_map_left_iff.mpr (h.links.imp fun link i hmirrors =>
    hmirrors.closeIn hp hd (hdepths.rise hp hd).1 hlen h.frames)

/-- Where no frame is left, no node is closed. -/
theorem TreeBefore.links_open (h : TreeBefore structLogs k starts tree)
    (hdepths : LegalDepths (structLogs.map (·.depth))) (hlog : structLogs[k]? = some log)
    (hp : DepthBefore (structLogs.map (·.depth)) k p) (hlen : starts.length + 1 = p)
    (hle : p ≤ log.depth) :
    List.Forall₂ (Mirrors structLogs (k + 1)) tree.root.links
      (rises (structLogs.map (·.depth)) k) := by
  have hlinks := h.links_closed hdepths hlog hp hlen
  rw [List.drop_of_length_le (by omega)] at hlinks
  have hnone : tree.root.links.map (·.closeIn [] k) = tree.root.links := List.map_id _
  rwa [hnone] at hlinks

theorem TreeBefore.entered (h : TreeBefore structLogs k starts tree)
    (hdepths : LegalDepths (structLogs.map (·.depth))) (hlog : structLogs[k]? = some log)
    (hp : DepthBefore (structLogs.map (·.depth)) k p) (hlen : starts.length + 1 = p)
    (hlt : p < log.depth) (address : Address) :
    TreeBefore structLogs (k + 1) (starts ++ [k])
      (tree.enterCall address
        (.ofOpcode (((MultiRecorder.prevLogOf structLogs k).map (·.op)).getD "")) k) where
  root := h.root ▸ CallNode.start_modifyAt (CallNode.start_pushChild _) _ _
  grown := by
    refine h.grown.enterCall _ _ fun hmem => ?_
    rw [starts_of_mirrors h.links] at hmem
    exact Nat.lt_irrefl k (List.mem_range.mp (List.mem_filter.mp hmem).1)
  frames := by
    have hd := getElem?_depths hlog
    have hframes := h.frames.succ hdepths hp hd (by rw [List.length_cons, hlen])
    have hrise := (hdepths.rise hp hd).2
    rw [← append_eq_resize (by rw [List.length_cons, hlen]; omega)] at hframes
    exact hframes
  links := by
    rw [h.grown.links_enterCall, h.root, rises_succ,
      if_pos (risesAt_of_rise hp (getElem?_depths hlog) hlt)]
    exact List.rel_append (h.links_open hdepths hlog hp hlen hlt.le)
      (.cons (mirrors_entered hdepths hlog hp hlt hlen h.frames) .nil)

theorem TreeBefore.same (h : TreeBefore structLogs k starts tree)
    (hdepths : LegalDepths (structLogs.map (·.depth))) (hlog : structLogs[k]? = some log)
    (hp : DepthBefore (structLogs.map (·.depth)) k p) (hlen : starts.length + 1 = p)
    (heq : p = log.depth) : TreeBefore structLogs (k + 1) starts tree where
  root := h.root
  grown := h.grown
  frames := by
    have hframes := h.frames.succ hdepths hp (getElem?_depths hlog)
      (by rw [List.length_cons, hlen])
    rw [resize_of_length (by rw [List.length_cons, hlen, heq])] at hframes
    exact hframes
  links := by
    rw [rises_succ, risesAt_of_le hp (getElem?_depths hlog) heq.ge]
    simpa using h.links_open hdepths hlog hp hlen heq.le

theorem TreeBefore.left (h : TreeBefore structLogs k starts tree)
    (hdepths : LegalDepths (structLogs.map (·.depth))) (hlog : structLogs[k]? = some log)
    (hp : DepthBefore (structLogs.map (·.depth)) k p) (hlen : starts.length + 1 = p)
    (hgt : log.depth < p) :
    TreeBefore structLogs (k + 1) (starts.take (log.depth - 1))
      ((·.exitCall k)^[p - log.depth] tree) := by
  have hd := getElem?_depths hlog
  have hpos : 1 ≤ log.depth := (hdepths.rise hp hd).1
  have hclosed : (starts.drop (log.depth - 1)).length = p - log.depth := by
    rw [List.length_drop]
    omega
  have hgrown := h.grown
  rw [← List.take_append_drop (log.depth - 1) starts] at hgrown
  obtain ⟨hgrown', hlinks'⟩ := hgrown.exitCalls k
  rw [hclosed] at hgrown' hlinks'
  refine ⟨(CallTree.start_exitCalls _ _ _).trans h.root, hgrown', ?_, ?_⟩
  · have htake : resize log.depth k (0 :: starts) = 0 :: starts.take (log.depth - 1) := by
      rw [← popN_eq_resize (by rw [List.length_cons]; omega), popN, Nat.sub_sub_self
        (by rw [List.length_cons]; omega)]
      obtain ⟨d, hd'⟩ : ∃ d, log.depth = d + 1 := ⟨log.depth - 1, by omega⟩
      rw [hd', List.take_succ_cons, Nat.add_sub_cancel]
    rw [← htake]
    exact h.frames.succ hdepths hp hd (by rw [List.length_cons, hlen])
  · rw [hlinks', rises_succ, risesAt_of_le hp hd hgt.le]
    simpa using h.links_closed hdepths hlog hp hlen

end TreeStep

namespace MultiRecorder

theorem callType_enteredFrame (frameStack : List FrameContext) (prevLog : Option StructLog) :
    (enteredFrame frameStack prevLog).2 = .ofOpcode ((prevLog.map (·.op)).getD "") := by
  unfold enteredFrame CallType.ofOpcode
  generalize (prevLog.map (·.op)).getD "" = op
  dsimp only
  by_cases hcall : op = "CALL" ∨ op = "CALLCODE"
  · rw [if_pos hcall]
    rcases hcall with rfl | rfl <;> rfl
  · rw [if_neg hcall]
    split
    · rfl
    · split
      · rfl
      · split
        · rfl
        · split <;> rfl

theorem callTree_handleStorage (keccak256 : List UInt8 → U256) (a : Artifacts) (log : StructLog)
    (s : MultiRecorderState) : (handleStorage keccak256 a log s).1.callTree = s.callTree := by
  unfold handleStorage
  dsimp only
  split <;> rfl

section Runs

variable {keccak256 : List UInt8 → U256} {registered : List Path} {registry : ContractRegistry}
  {contractAddress : Address} {structLogs : List StructLog}

/-- Only the depth handling of a log changes the tree. -/
theorem callTree_stepOf (k : Nat) (log : StructLog) (s : MultiRecorderState) :
    (stepOf keccak256 registry contractAddress structLogs k log s).1.callTree =
      (enterDepth structLogs k log s).callTree :=
  (callTree_handleStorage keccak256 _ log _).trans
    (sameOuter_handleLocation _ structLogs _ k log _).callTree

theorem treeBefore_zero : TreeBefore structLogs 0 [] (.new contractAddress) where
  root := rfl
  grown := CallTree.grown_new contractAddress
  frames := ⟨fun _ => rfl, fun h => absurd h (Nat.lt_irrefl 0)⟩
  links := .nil

/-- The depth handling of a log opens or closes the nodes of its frames. -/
theorem treeBefore_enterDepth {k : Nat} {log : StructLog} {starts : List Nat}
    {s : MultiRecorderState} (h : TreeBefore structLogs k starts s.callTree)
    (hdepths : LegalDepths (structLogs.map (·.depth))) (hlog : structLogs[k]? = some log)
    (hp : DepthBefore (structLogs.map (·.depth)) k s.prevDepth)
    (hlen : starts.length + 1 = s.prevDepth) :
    ∃ starts', TreeBefore structLogs (k + 1) starts' (enterDepth structLogs k log s).callTree ∧
      starts'.length + 1 = log.depth := by
  have hpos : 1 ≤ log.depth := (hdepths.rise hp (getElem?_depths hlog)).1
  unfold MultiRecorder.enterDepth
  dsimp only
  rcases Nat.lt_trichotomy s.prevDepth log.depth with hlt | heq | hgt
  · have hentered := h.entered hdepths hlog hp hlen hlt
      (enteredFrame s.frameStack (prevLogOf structLogs k)).1.address
    rw [if_pos hlt]
    refine ⟨starts ++ [k], ?_, ?_⟩
    · rw [← callType_enteredFrame s.frameStack] at hentered
      exact hentered
    · rw [List.length_append, List.length_singleton, hlen]
      exact Nat.le_antisymm hlt (hdepths.rise hp (getElem?_depths hlog)).2
  · rw [if_neg heq.not_lt, if_neg heq.not_gt]
    exact ⟨starts, h.same hdepths hlog hp hlen heq, hlen.trans heq⟩
  · rw [if_neg hgt.le.not_gt, if_pos hgt]
    refine ⟨starts.take (log.depth - 1), h.left hdepths hlog hp hlen hgt, ?_⟩
    rw [List.length_take]
    omega

/-- Before log `k` the path has one node for each frame below the outermost. -/
def FramesOnPath (structLogs : List StructLog) (k : Nat) (s : MultiRecorderState) : Prop :=
  DepthBefore (structLogs.map (·.depth)) k s.prevDepth ∧
    ∃ starts, TreeBefore structLogs k starts s.callTree ∧ starts.length + 1 = s.prevDepth

theorem framesOnPath_stateBefore (hdepths : LegalDepths (structLogs.map (·.depth))) :
    ∀ k, k ≤ structLogs.length → FramesOnPath structLogs k
      (stateBefore keccak256 registered registry contractAddress structLogs k) := by
  refine Machine.invariant ⟨rfl, [], treeBefore_zero, rfl⟩ ?_
  rintro k log s hlog ⟨hp, starts, htree, hlen⟩
  obtain ⟨starts', htree', hlen'⟩ := treeBefore_enterDepth htree hdepths hlog hp hlen
  refine ⟨getElem?_depths hlog, starts', ?_, hlen'⟩
  rw [callTree_stepOf]
  exact htree'

end Runs

/-- The tree of a recording. -/
theorem treeBefore_recorded (keccak256 : List UInt8 → U256) (registered : List Path)
    (registry : ContractRegistry) (contractAddress : Address) {structLogs : List StructLog}
    (hdepths : LegalDepths (structLogs.map (·.depth))) :
    ∃ starts, TreeBefore structLogs structLogs.length starts
      (recordFromStructlogMultiContract keccak256 registered registry contractAddress
        structLogs).2 := by
  by_cases hnil : structLogs = []
  · subst hnil
    exact ⟨[], treeBefore_zero⟩
  · obtain ⟨-, starts, h, -⟩ := @framesOnPath_stateBefore keccak256 registered registry
      contractAddress structLogs hdepths _ le_rfl
    refine ⟨starts, ?_⟩
    rw [stateBefore, Machine.stateBefore, List.take_length] at h
    rw [recordFromStructlogMultiContract, if_neg (by simpa using hnil)]
    exact h

/-- **The call tree mirrors the frames.** Below the root the tree has, in
preorder, one node for each rise of the depth in trace order: with the rise as its
start, the kind of the opcode before it, the frame open there as its parent, and
the first later log below its depth as its end. Every path leads to a node, and
an exit at the root changes nothing. -/
theorem callTree_mirrors_frames (keccak256 : List UInt8 → U256) (registered : List Path)
    (registry : ContractRegistry) (contractAddress : Address) {structLogs : List StructLog}
    (hdepths : LegalDepths (structLogs.map (·.depth))) :
    let tree := (recordFromStructlogMultiContract keccak256 registered registry contractAddress
      structLogs).2
    tree.root.start = 0 ∧
      List.Forall₂ (Mirrors structLogs structLogs.length) tree.root.links
        (rises (structLogs.map (·.depth)) structLogs.length) ∧
      (∀ k, let t := (stateBefore keccak256 registered registry contractAddress structLogs k).callTree
        (t.root.nodeAt t.path).isSome) ∧
      ∀ (t : CallTree) (step : Nat), t.path = [] → t.exitCall step = t := by
  intro tree
  obtain ⟨starts, h⟩ := treeBefore_recorded keccak256 registered registry contractAddress hdepths
  refine ⟨h.root, h.links, ?_, ?_⟩
  · intro k t
    exact t.valid
  · intro t step hroot
    exact CallTree.exitCall_root hroot step

/-- Two calls nested in a delegated one, left together. -/
def nestedCalls : List StructLog :=
  [{ pc := 0, op := "DELEGATECALL", depth := 1 }, { pc := 0, op := "CALL", depth := 2 },
    { pc := 0, op := "STATICCALL", depth := 3 }, { pc := 0, op := "SELFDESTRUCT", depth := 4 },
    { pc := 1, op := "CREATE", depth := 1 }, { pc := 0, op := "STOP", depth := 2 }]

example : (recordFromStructlogMultiContract (fun _ => 0) [] {} 0 nestedCalls).2.root.links =
    [⟨0, 1, 4, .delegateCall⟩, ⟨1, 2, 4, .call⟩, ⟨2, 3, 4, .staticCall⟩, ⟨0, 5, 0, .create⟩] := by
  decide

theorem callTree_mirrors_nestedCalls :
    List.Forall₂ (Mirrors nestedCalls 6)
      (recordFromStructlogMultiContract (fun _ => 0) [] {} 0 nestedCalls).2.root.links
      [1, 2, 3, 5] :=
  (callTree_mirrors_frames (fun _ => 0) [] {} 0 (by decide : LegalDepths (nestedCalls.map (·.depth)))).2.1

end MultiRecorder

end EvmRecorder
