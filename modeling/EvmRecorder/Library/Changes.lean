import Mathlib.Data.List.Destutter
import Mathlib.Data.List.SplitBy
import Mathlib.Tactic

/-!
# Loops that report changes

A loop over items that have a key and may have a value reports an item when its
value differs from the last one seen under the same key. On each maximal run of
one key the report is the list of items with a value, without adjacent repeats.
-/

namespace EvmRecorder.Changes

variable {ι κ γ : Type} [DecidableEq κ] [DecidableEq γ]

/-! ## §1  The loop -/

/-- Key of the last item, and the last value seen since the key changed. -/
structure Memory (κ γ : Type) where
  key : Option κ := none
  last : Option γ := none

section Loop

variable (key : ι → κ) (value : ι → Option γ)

/-- The last value, unless the item has another key. -/
def lastUnder (m : Memory κ γ) (x : ι) : Option γ := if m.key = some (key x) then m.last else none

def remember (m : Memory κ γ) (x : ι) : Memory κ γ :=
  ⟨some (key x), (value x).orElse fun _ => lastUnder key m x⟩

/-- The item, if its value is new, with the value before it. -/
def changeAt (m : Memory κ γ) (x : ι) : List (Option γ × ι) :=
  (value x).elim [] fun v => if lastUnder key m x = some v then [] else [(lastUnder key m x, x)]

def changes : Memory κ γ → List ι → List (Option γ × ι)
  | _, [] => []
  | m, x :: xs => changeAt key value m x ++ changes (remember key value m x) xs

/-! ## §2  The report on one run -/

def Differ (x y : ι) : Prop := value x ≠ value y

instance : DecidableRel (Differ value) := fun x y =>
  inferInstanceAs (Decidable (value x ≠ value y))

/-- The items with a value, without adjacent repeats. -/
def changesOf (xs : List ι) : List ι :=
  (xs.filter fun x => (value x).isSome).destutter (Differ value)

/-- Each item with the value of the one before it. -/
def withPrevious (xs : List ι) : List (Option γ × ι) := (none :: xs.map value).zip xs

end Loop

variable {key : ι → κ} {value : ι → Option γ}

theorem changes_append (m : Memory κ γ) : ∀ xs ys : List ι, changes key value m (xs ++ ys) =
    changes key value m xs ++ changes key value (xs.foldl (remember key value) m) ys := by
  intro xs
  induction xs generalizing m with
  | nil => exact fun ys => rfl
  | cons x xs ih =>
      intro ys
      rw [List.cons_append, changes, ih, changes, List.append_assoc, List.foldl_cons]

/-- One more item. -/
theorem changes_snoc (m : Memory κ γ) (xs : List ι) (x : ι) : changes key value m (xs ++ [x]) =
    changes key value m xs ++ changeAt key value (xs.foldl (remember key value) m) x := by
  rw [changes_append, changes, changes, List.append_nil]

theorem exists_destutter'_eq_cons (R : ι → ι → Prop) [DecidableRel R] (a : ι) :
    ∀ xs : List ι, ∃ ys, xs.destutter' R a = a :: ys
  | [] => ⟨[], rfl⟩
  | x :: xs => by
      by_cases h : R a x
      · exact ⟨_, List.destutter'_cons_pos xs h⟩
      · rw [List.destutter'_cons_neg xs h]
        exact exists_destutter'_eq_cons R a xs

section Run

variable {c : κ}

/-- Once a value has been seen, the rest of the run is de-stuttered behind it. -/
theorem changes_of_last {a : ι} {v : γ} (ha : value a = some v) : ∀ xs : List ι,
    (∀ x ∈ xs, key x = c) → changes key value ⟨some c, some v⟩ xs =
      (withPrevious value ((xs.filter fun x => (value x).isSome).destutter'
        (Differ value) a)).tail := by
  intro xs
  induction xs generalizing a v with
  | nil => exact fun _ => rfl
  | cons x xs ih =>
      intro hkeys
      obtain ⟨hx, hkeys⟩ := List.forall_mem_cons.mp hkeys
      have hrecall : lastUnder key (⟨some c, some v⟩ : Memory κ γ) x = some v := by
        rw [lastUnder, hx, if_pos rfl]
      rw [changes, changeAt, remember, hrecall, hx]
      cases hv : value x with
      | none =>
          rw [List.filter_cons_of_neg (by simp [hv])]
          exact ih ha hkeys
      | some w =>
          rw [List.filter_cons_of_pos (by simp [hv])]
          by_cases hvw : v = w
          · subst hvw
            have hsame : ¬ Differ value a x := by simp [Differ, ha, hv]
            rw [List.destutter'_cons_neg _ hsame]
            simpa using ih ha hkeys
          · have hnew : Differ value a x := by simpa [Differ, ha, hv] using hvw
            obtain ⟨ys, hys⟩ := exists_destutter'_eq_cons (Differ value) x
              (xs.filter fun x => (value x).isSome)
            have ih' := ih hv hkeys
            rw [hys] at ih'
            rw [List.destutter'_cons_pos _ hnew, hys]
            simp only [Option.elim_some, Option.some.injEq, if_neg hvw, Option.orElse_some, ih']
            simp [withPrevious, ha]

/-- A run of one key, entered without a value. -/
theorem changes_of_run : ∀ (xs : List ι) (m : Memory κ γ), (∀ x ∈ xs, key x = c) →
    (m.key = some c → m.last = none) →
    changes key value m xs = withPrevious value (changesOf value xs) := by
  intro xs
  induction xs with
  | nil => exact fun _ _ _ => rfl
  | cons x xs ih =>
      intro m hkeys hm
      obtain ⟨hx, hkeys⟩ := List.forall_mem_cons.mp hkeys
      have hrecall : lastUnder key m x = none := by
        rw [lastUnder, hx]
        split
        · next h => exact hm h
        · rfl
      rw [changes, changeAt, remember, hrecall, hx, changesOf]
      cases hv : value x with
      | none =>
          rw [List.filter_cons_of_neg (by simp [hv])]
          exact ih ⟨some c, none⟩ hkeys fun _ => rfl
      | some v =>
          rw [List.filter_cons_of_pos (by simp [hv]), List.destutter_cons']
          obtain ⟨ys, hys⟩ := exists_destutter'_eq_cons (Differ value) x
            (xs.filter fun x => (value x).isSome)
          have htail := changes_of_last hv xs hkeys
          rw [hys] at htail
          rw [hys]
          simp only [Option.elim_some, reduceCtorEq, if_false, Option.orElse_some, htail]
          rfl

omit [DecidableEq γ] in
theorem key_foldl_remember (m : Memory κ γ) : ∀ {xs : List ι}, xs ≠ [] →
    (∀ x ∈ xs, key x = c) → (xs.foldl (remember key value) m).key = some c := by
  intro xs hne hkeys
  induction xs using List.reverseRecOn with
  | nil => exact absurd rfl hne
  | append_singleton xs x _ =>
      rw [List.foldl_append, List.foldl_cons, List.foldl_nil, remember,
        hkeys x (List.mem_append_right _ List.mem_cons_self)]

end Run

omit [DecidableEq γ] in
theorem map_filter_isSome (value : ι → Option γ) : ∀ xs : List ι,
    (xs.filter fun x => (value x).isSome).map value = (xs.filterMap value).map some
  | [] => rfl
  | x :: xs => by
      have ih := map_filter_isSome value xs
      cases hv : value x with
      | none => rw [List.filter_cons_of_neg (by simp [hv]), List.filterMap_cons_none hv, ih]
      | some v =>
          rw [List.filter_cons_of_pos (by simp [hv]), List.filterMap_cons_some hv,
            List.map_cons, List.map_cons, hv, ih]

/-- The values reported are the values seen, without adjacent repeats. -/
theorem filterMap_changesOf (value : ι → Option γ) (xs : List ι) :
    (changesOf value xs).filterMap value = (xs.filterMap value).destutter (· ≠ ·) := by
  have hmap : (changesOf value xs).map value =
      ((xs.filter fun x => (value x).isSome).map value).destutter (· ≠ ·) :=
    List.map_destutter fun _ _ _ _ => Iff.rfl
  calc (changesOf value xs).filterMap value
    _ = ((changesOf value xs).map value).filterMap id := by
        rw [List.filterMap_map]
        rfl
    _ = (((xs.filterMap value).destutter (· ≠ ·)).map some).filterMap id := by
        rw [hmap, map_filter_isSome, List.map_destutter_ne _ (Option.some_injective γ)]
    _ = (xs.filterMap value).destutter (· ≠ ·) := by
        simp

/-! ## §3  The report on all runs -/

/-- The maximal runs of items with one key. -/
def runs (key : ι → κ) (xs : List ι) : List (List ι) := xs.splitBy fun x y => key x == key y

theorem key_eq_head : ∀ {xs : List ι} (hne : xs ≠ []),
    (xs.IsChain fun x y => (key x == key y) = true) → ∀ x ∈ xs, key x = key (xs.head hne)
  | [], hne, _ => absurd rfl hne
  | [x], _, _ => by simp
  | x :: y :: xs, _, hchain => by
      obtain ⟨hxy, hchain⟩ := List.isChain_cons_cons.mp hchain
      have ih := key_eq_head (List.cons_ne_nil y xs) hchain
      refine List.forall_mem_cons.mpr ⟨rfl, fun z hz => ?_⟩
      rw [ih z hz, List.head_cons, List.head_cons, beq_iff_eq.mp hxy]

/-- The loop over runs, of which each but the first follows one of another key. -/
theorem changes_flatten : ∀ (segments : List (List ι)) (m : Memory κ γ), [] ∉ segments →
    (∀ seg ∈ segments, seg.IsChain fun x y => (key x == key y) = true) →
    (segments.IsChain fun xs ys => ∃ hx hy, (key (xs.getLast hx) == key (ys.head hy)) = false) →
    (∀ seg ∈ segments.head?, ∀ x ∈ seg.head?, m.key = some (key x) → m.last = none) →
    changes key value m segments.flatten =
      segments.flatMap fun seg => withPrevious value (changesOf value seg)
  | [], _, _, _, _, _ => rfl
  | seg :: segments, m, hnil, hruns, hchain, hm => by
      obtain ⟨hrun, hruns⟩ := List.forall_mem_cons.mp hruns
      have hne : seg ≠ [] := fun h => hnil (h ▸ List.mem_cons_self)
      have hkeys := key_eq_head hne hrun
      have hfresh : m.key = some (key (seg.head hne)) → m.last = none :=
        hm seg rfl (seg.head hne) (List.head?_eq_some_head hne)
      rw [List.flatten_cons, changes_append, changes_of_run seg m hkeys hfresh,
        List.flatMap_cons]
      congr 1
      refine changes_flatten segments _ (fun h => hnil (List.mem_cons_of_mem seg h)) hruns
        hchain.of_cons fun next hnext x hx hkey => ?_
      -- the next run has another key
      rw [key_foldl_remember m hne hkeys, Option.some.injEq] at hkey
      obtain ⟨hlast, hne', hdiffer⟩ := hchain.rel_head? hnext
      have hhead : next.head hne' = x := by
        rw [List.head?_eq_some_head hne'] at hx
        exact Option.some.inj hx
      rw [hkeys _ (List.getLast_mem hlast), hhead, hkey] at hdiffer
      simp at hdiffer

/-- **The report of a loop**: on each maximal run of one key, the items with a value
without adjacent repeats, each with the value reported before it in the run. -/
theorem changes_eq (xs : List ι) : changes key value {} xs =
    (runs key xs).flatMap fun seg => withPrevious value (changesOf value seg) := by
  conv_lhs => rw [← List.flatten_splitBy (fun x y => key x == key y) xs]
  exact changes_flatten _ {} (List.nil_notMem_splitBy _ xs)
    (fun seg hseg => List.isChain_of_mem_splitBy hseg)
    (List.isChain_getLast_head_splitBy (fun x y => key x == key y) xs) (fun _ _ _ _ _ => rfl)

/-! ## §4  Loops over an index -/

section Indexed

variable (key : ι → κ) (value : ι → Option γ) (visit : Nat → ι) (prev : Nat → Option γ) {n : Nat}

omit [DecidableEq γ] in
/-- A loop whose previous value is reset when the key changes remembers what
`Memory` does. -/
theorem lastUnder_eq_prev (hzero : prev 0 = none)
    (hsucc : ∀ k, k + 1 < n → prev (k + 1) = if key (visit k) = key (visit (k + 1)) then
      (value (visit k)).orElse fun _ => prev k else none) : ∀ k, k < n →
    lastUnder key (((List.range k).map visit).foldl (remember key value) {}) (visit k) = prev k
  | 0, _ => by
      rw [hzero]
      exact ite_self none
  | k + 1, hk => by
      have ih := lastUnder_eq_prev hzero hsucc k (Nat.lt_of_succ_lt hk)
      rw [List.range_succ, List.map_append, List.foldl_append, List.map_cons, List.map_nil,
        List.foldl_cons, List.foldl_nil, lastUnder, remember, ih, hsucc k hk]
      simp only [Option.some.injEq]

/-- What such a loop reports. -/
theorem changes_map_range (hzero : prev 0 = none)
    (hsucc : ∀ k, k + 1 < n → prev (k + 1) = if key (visit k) = key (visit (k + 1)) then
      (value (visit k)).orElse fun _ => prev k else none) : ∀ m, m ≤ n →
    changes key value {} ((List.range m).map visit) = (List.range m).flatMap fun k =>
      (value (visit k)).elim [] fun v => if prev k = some v then [] else [(prev k, visit k)]
  | 0, _ => rfl
  | m + 1, hm => by
      rw [List.range_succ, List.map_append, List.map_cons, List.map_nil, changes_snoc,
        changes_map_range hzero hsucc m (Nat.le_of_lt hm), List.flatMap_append, changeAt,
        lastUnder_eq_prev key value visit prev hzero hsucc m hm]
      simp

end Indexed

end EvmRecorder.Changes
