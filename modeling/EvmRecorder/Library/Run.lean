import Mathlib.Tactic

/-!
# Machines over an enumerated list

A loop `for (i, x) in xs.iter().enumerate()` that carries a state and appends
output: the state before and the output up to each index, the invariant rule,
and the rule for projecting one machine onto another.
-/

namespace EvmRecorder.Machine

variable {σ τ ι κ ω ο : Type}

/-! ## §1  Runs -/

/-- The loop from index `i`: final state and concatenated output. -/
def run (step : Nat → ι → σ → σ × List ω) : Nat → List ι → σ → σ × List ω
  | _, [], s => (s, [])
  | i, x :: xs, s =>
      let r := step i x s
      let q := run step (i + 1) xs r.1
      (q.1, r.2 ++ q.2)

section

variable (step : Nat → ι → σ → σ × List ω) (xs : List ι) (s₀ : σ)

/-- State before index `k`. -/
def stateBefore (k : Nat) : σ := (run step 0 (xs.take k) s₀).1

/-- Output of the indices below `k`. -/
def outputBefore (k : Nat) : List ω := (run step 0 (xs.take k) s₀).2

end

theorem run_append (step : Nat → ι → σ → σ × List ω) : ∀ (xs ys : List ι) (i : Nat) (s : σ),
    run step i (xs ++ ys) s =
      ((run step (i + xs.length) ys (run step i xs s).1).1,
        (run step i xs s).2 ++ (run step (i + xs.length) ys (run step i xs s).1).2)
  | [], ys, i, s => by simp [run]
  | x :: xs, ys, i, s => by
      have ih := run_append step xs ys (i + 1) (step i x s).1
      have hindex : i + 1 + xs.length = i + (xs.length + 1) := by omega
      rw [hindex] at ih
      simp only [List.cons_append, run, ih, List.length_cons, List.append_assoc]

/-- What holds of every output of every step holds of every output. -/
theorem forall_mem_run {step : Nat → ι → σ → σ × List ω} {P : ω → Prop} :
    ∀ {xs : List ι}, (∀ i, ∀ x ∈ xs, ∀ s, ∀ o ∈ (step i x s).2, P o) →
      ∀ (i : Nat) (s : σ), ∀ o ∈ (run step i xs s).2, P o
  | [], _, _, _, o, ho => nomatch ho
  | x :: xs, h, i, s, o, ho => by
      rcases List.mem_append.mp ho with ho | ho
      · exact h i x List.mem_cons_self s o ho
      · exact forall_mem_run (fun i y hy => h i y (List.mem_cons_of_mem x hy)) (i + 1) _ o ho

variable {step : Nat → ι → σ → σ × List ω} {xs : List ι} {s₀ : σ}

@[simp] theorem stateBefore_zero : stateBefore step xs s₀ 0 = s₀ := by
  simp [stateBefore, run]

@[simp] theorem outputBefore_zero : outputBefore step xs s₀ 0 = [] := by
  simp [outputBefore, run]

theorem run_take_succ {k : Nat} {x : ι} (h : xs[k]? = some x) :
    run step 0 (xs.take (k + 1)) s₀ =
      ((step k x (stateBefore step xs s₀ k)).1,
        outputBefore step xs s₀ k ++ (step k x (stateBefore step xs s₀ k)).2) := by
  have hlt : k < xs.length := (List.getElem?_eq_some_iff.mp h).1
  have htake : xs.take (k + 1) = xs.take k ++ [x] := by
    rw [List.take_add_one, h]
    rfl
  have hlen : (xs.take k).length = k := List.length_take_of_le (Nat.le_of_lt hlt)
  rw [htake, run_append, hlen, Nat.zero_add]
  simp [run, stateBefore, outputBefore]

theorem stateBefore_succ {k : Nat} {x : ι} (h : xs[k]? = some x) :
    stateBefore step xs s₀ (k + 1) = (step k x (stateBefore step xs s₀ k)).1 := by
  rw [stateBefore, run_take_succ h]

theorem outputBefore_succ {k : Nat} {x : ι} (h : xs[k]? = some x) :
    outputBefore step xs s₀ (k + 1) =
      outputBefore step xs s₀ k ++ (step k x (stateBefore step xs s₀ k)).2 := by
  rw [outputBefore, run_take_succ h]

theorem run_eq_outputBefore : (run step 0 xs s₀).2 = outputBefore step xs s₀ xs.length := by
  rw [outputBefore, List.take_length]

theorem outputBefore_prefix_run (k : Nat) :
    outputBefore step xs s₀ k <+: (run step 0 xs s₀).2 := by
  have hsplit := run_append step (xs.take k) (xs.drop k) 0 s₀
  rw [List.take_append_drop] at hsplit
  rw [hsplit]
  exact List.prefix_append _ _

theorem prefix_append_cases {p us vs : List ω} (h : p <+: us ++ vs) :
    p <+: us ∨ ∃ q, p = us ++ q ∧ q <+: vs := by
  rcases List.prefix_or_prefix_of_prefix h (List.prefix_append us vs) with hp | ⟨q, rfl⟩
  · exact .inl hp
  · exact .inr ⟨q, rfl, (List.prefix_append_right_inj us).mp h⟩

/-- An element of a concatenation, with what stands before it, is in one part. -/
theorem snoc_prefix_append_cases {q us vs : List ω} {e : ω} (h : q ++ [e] <+: us ++ vs) :
    q ++ [e] <+: us ∨ ∃ q', q = us ++ q' ∧ q' ++ [e] <+: vs := by
  rcases prefix_append_cases h with h | ⟨q₁, hq, hq₁⟩
  · exact .inl h
  · rcases List.eq_nil_or_concat q₁ with rfl | ⟨q', e', rfl⟩
    · rw [List.append_nil] at hq
      exact .inl (hq ▸ List.prefix_refl us)
    · rw [List.concat_eq_append, ← List.append_assoc] at hq
      obtain ⟨rfl, rfl⟩ := List.append_singleton_inj.mp hq
      exact .inr ⟨q', rfl, by rwa [← List.concat_eq_append]⟩

/-- A prefix of the output ends inside the output of one step. -/
theorem exists_of_prefix_outputBefore {p : List ω} :
    ∀ n, n ≤ xs.length → p <+: outputBefore step xs s₀ n →
      p = [] ∨ ∃ k x q, k < n ∧ xs[k]? = some x ∧
        q <+: (step k x (stateBefore step xs s₀ k)).2 ∧ p = outputBefore step xs s₀ k ++ q
  | 0, _, hp => by
      rw [outputBefore_zero] at hp
      exact .inl (List.prefix_nil.mp hp)
  | n + 1, hn, hp => by
      have hx : xs[n]? = some xs[n] := List.getElem?_eq_getElem hn
      rw [outputBefore_succ hx] at hp
      rcases prefix_append_cases hp with hp | ⟨q, hp, hq⟩
      · rcases exists_of_prefix_outputBefore n (Nat.le_of_lt hn) hp with h | ⟨k, x, q, hk, h⟩
        · exact .inl h
        · exact .inr ⟨k, x, q, Nat.lt_succ_of_lt hk, h⟩
      · exact .inr ⟨n, xs[n], q, Nat.lt_succ_self n, hx, hq, hp⟩

/-- An output stands in the output of one step. -/
theorem exists_of_snoc_prefix_outputBefore {q : List ω} {e : ω} :
    ∀ n, n ≤ xs.length → q ++ [e] <+: outputBefore step xs s₀ n →
      ∃ k, outputBefore step xs s₀ k <+: q ∧ q ++ [e] <+: outputBefore step xs s₀ (k + 1)
  | 0, _, h => by
      rw [outputBefore_zero, List.prefix_nil] at h
      exact absurd h (List.append_ne_nil_of_right_ne_nil q (List.cons_ne_nil e []))
  | n + 1, hn, h => by
      have hx : xs[n]? = some xs[n] := List.getElem?_eq_getElem hn
      have hlast := h
      rw [outputBefore_succ hx] at h
      rcases snoc_prefix_append_cases h with h | ⟨q', rfl, -⟩
      · exact exists_of_snoc_prefix_outputBefore n (Nat.le_of_lt hn) h
      · exact ⟨n, List.prefix_append _ _, hlast⟩

/-- What is read off the output is what is read off each step, in order. -/
theorem filterMap_outputBefore {f : ω → Option ο} {readAt : Nat → List ο}
    (hread : ∀ k x, xs[k]? = some x →
      (step k x (stateBefore step xs s₀ k)).2.filterMap f = readAt k) :
    ∀ k, k ≤ xs.length → (outputBefore step xs s₀ k).filterMap f = (List.range k).flatMap readAt
  | 0, _ => by
      rw [outputBefore_zero]
      rfl
  | k + 1, hk => by
      have hx : xs[k]? = some xs[k] := List.getElem?_eq_getElem hk
      rw [outputBefore_succ hx, List.filterMap_append, hread k _ hx,
        filterMap_outputBefore hread k (Nat.le_of_lt hk), List.range_succ, List.flatMap_append,
        List.flatMap_singleton]

/-- Past the end nothing is output. -/
theorem outputBefore_succ_of_length_le {k : Nat} (h : xs.length ≤ k) :
    outputBefore step xs s₀ (k + 1) = outputBefore step xs s₀ k := by
  rw [outputBefore, outputBefore, List.take_of_length_le h,
    List.take_of_length_le (Nat.le_succ_of_le h)]

/-! ## §2  Invariants -/

/-- What holds initially and is preserved by every step holds before every
index. -/
theorem invariant {Inv : Nat → σ → Prop} (hinit : Inv 0 s₀)
    (hstep : ∀ k x s, xs[k]? = some x → Inv k s → Inv (k + 1) (step k x s).1) :
    ∀ k, k ≤ xs.length → Inv k (stateBefore step xs s₀ k)
  | 0, _ => by simpa using hinit
  | k + 1, hk => by
      have hx : xs[k]? = some xs[k] := List.getElem?_eq_getElem hk
      rw [stateBefore_succ hx]
      exact hstep k _ _ hx (invariant hinit hstep k (Nat.le_of_lt hk))

/-! ## §3  Projection onto another machine -/

/-- If the steps agree through `view` on states, on the input map and through
`proj` on outputs, so do the runs. -/
theorem run_project {step' : Nat → κ → τ → τ × List ο} (view : σ → τ) (f : ι → κ)
    (proj : ω → Option ο)
    (hstep : ∀ i x s, step' i (f x) (view s) =
      (view (step i x s).1, (step i x s).2.filterMap proj)) :
    ∀ (xs : List ι) (i : Nat) (s : σ),
      run step' i (xs.map f) (view s) =
        (view (run step i xs s).1, (run step i xs s).2.filterMap proj)
  | [], _, _ => rfl
  | x :: xs, i, s => by
      have ih := run_project view f proj hstep xs (i + 1) (step i x s).1
      simp only [List.map_cons, run, hstep, ih, List.filterMap_append]

theorem stateBefore_project {step' : Nat → κ → τ → τ × List ο} (view : σ → τ) (f : ι → κ)
    (proj : ω → Option ο)
    (hstep : ∀ i x s, step' i (f x) (view s) =
      (view (step i x s).1, (step i x s).2.filterMap proj)) (k : Nat) :
    view (stateBefore step xs s₀ k) = stateBefore step' (xs.map f) (view s₀) k := by
  rw [stateBefore, stateBefore, ← List.map_take, run_project view f proj hstep]

theorem outputBefore_project {step' : Nat → κ → τ → τ × List ο} (view : σ → τ) (f : ι → κ)
    (proj : ω → Option ο)
    (hstep : ∀ i x s, step' i (f x) (view s) =
      (view (step i x s).1, (step i x s).2.filterMap proj)) (k : Nat) :
    (outputBefore step xs s₀ k).filterMap proj =
      outputBefore step' (xs.map f) (view s₀) k := by
  rw [outputBefore, outputBefore, ← List.map_take, run_project view f proj hstep]

/-! ## §4  Simulation -/

/-- Related states stay related and issue the same output, over inputs of one length that
`P` relates at each index. -/
theorem run_simulate_inputs {step' : Nat → κ → τ → τ × List ω} {R : σ → τ → Prop}
    {P : Nat → ι → κ → Prop}
    (hstep : ∀ i x y s t, P i x y → R s t →
      R (step i x s).1 (step' i y t).1 ∧ (step i x s).2 = (step' i y t).2) :
    ∀ (xs : List ι) (ys : List κ) (i : Nat) (s : σ) (t : τ), xs.length = ys.length →
      (∀ k x y, xs[k]? = some x → ys[k]? = some y → P (i + k) x y) → R s t →
        R (run step i xs s).1 (run step' i ys t).1 ∧ (run step i xs s).2 = (run step' i ys t).2
  | [], [], _, _, _, _, _, h => ⟨h, rfl⟩
  | [], _ :: _, _, _, _, hlength, _, _ => absurd hlength (by simp)
  | _ :: _, [], _, _, _, hlength, _, _ => absurd hlength (by simp)
  | x :: xs, y :: ys, i, s, t, hlength, hall, h => by
      obtain ⟨hrelated, houtput⟩ := hstep i x y s t (hall 0 x y rfl rfl) h
      obtain ⟨hrun, hrest⟩ := run_simulate_inputs hstep xs ys (i + 1) _ _ (Nat.succ.inj hlength)
        (fun k x' y' hx hy => by
          rw [Nat.add_right_comm]
          exact hall (k + 1) x' y' hx hy) hrelated
      exact ⟨hrun, by rw [run, run, houtput, hrest]⟩

/-- Over the same inputs, which satisfy `P` at their indices. -/
theorem run_simulate {step' : Nat → ι → τ → τ × List ω} {R : σ → τ → Prop}
    {P : Nat → ι → Prop}
    (hstep : ∀ i x s t, P i x → R s t →
      R (step i x s).1 (step' i x t).1 ∧ (step i x s).2 = (step' i x t).2)
    (xs : List ι) (i : Nat) (s : σ) (t : τ) (hall : ∀ k x, xs[k]? = some x → P (i + k) x)
    (h : R s t) :
    R (run step i xs s).1 (run step' i xs t).1 ∧ (run step i xs s).2 = (run step' i xs t).2 := by
  apply run_simulate_inputs (P := fun i x y => x = y ∧ P i x) _ xs xs i s t rfl _ h
  · rintro i x y s t ⟨rfl, hx⟩ hrelated
    exact hstep i x s t hx hrelated
  · intro k x y hx hy
    exact ⟨Option.some.inj (hx.symm.trans hy), hall k x hx⟩

/-- Related states stay related and issue related output, where outputs are related piece
by piece. -/
theorem run_simulate_output {step' : Nat → ι → τ → τ × List ω} {R : σ → τ → Prop}
    {E : List ω → List ω → Prop} (hnil : E [] [])
    (happend : ∀ us us' vs vs', E us us' → E vs vs' → E (us ++ vs) (us' ++ vs'))
    (hstep : ∀ i x s t, R s t → R (step i x s).1 (step' i x t).1 ∧ E (step i x s).2 (step' i x t).2) :
    ∀ (xs : List ι) (i : Nat) (s : σ) (t : τ), R s t →
      R (run step i xs s).1 (run step' i xs t).1 ∧ E (run step i xs s).2 (run step' i xs t).2
  | [], _, _, _, h => ⟨h, hnil⟩
  | x :: xs, i, s, t, h => by
      obtain ⟨hrelated, hissued⟩ := hstep i x s t h
      obtain ⟨hlast, hrest⟩ := run_simulate_output hnil happend hstep xs (i + 1) _ _ hrelated
      exact ⟨hlast, happend _ _ _ _ hissued hrest⟩

end EvmRecorder.Machine
