import EvmRecorder.Library.Run

/-!
# Machines that look ahead

A loop over a list may read entries other than the one it is at. If it reads at
most `w` entries ahead, its first `k` steps depend on the first `k + w` entries
only, whatever it reads behind.
-/

namespace EvmRecorder.Machine

variable {σ ι ω : Type}

/-- The step at an index sees the list up to `w` entries ahead. -/
def SeesAhead (w : Nat) (step : List ι → Nat → ι → σ → σ × List ω) : Prop :=
  ∀ xs ys i, (∀ j, j ≤ i + w → xs[j]? = ys[j]?) → step xs i = step ys i

namespace SeesAhead

variable {w : Nat} {step : List ι → Nat → ι → σ → σ × List ω}

theorem run_congr (h : SeesAhead w step) {xs ys : List ι} :
    ∀ (l : List ι) (i : Nat) (s : σ), (∀ j, j < i + l.length + w → xs[j]? = ys[j]?) →
      run (step xs) i l s = run (step ys) i l s
  | [], _, _, _ => rfl
  | x :: l, i, s, hagree => by
      have hstep : step xs i = step ys i := h xs ys i fun j hj => hagree j (by
        rw [List.length_cons]
        omega)
      have hrest := run_congr h l (i + 1) (step xs i x s).1 fun j hj => hagree j (by
        rw [List.length_cons]
        omega)
      rw [run, run, hrest, hstep]

/-- The first `k` steps are those of the list cut off `w` entries further on. -/
theorem run_take (h : SeesAhead w step) (xs : List ι) (k : Nat) (s : σ) :
    run (step (xs.take (k + w))) 0 ((xs.take (k + w)).take k) s = run (step xs) 0 (xs.take k) s := by
  rw [List.take_take, Nat.min_eq_left (Nat.le_add_right k w)]
  refine h.run_congr _ 0 s fun j hj => List.getElem?_take_of_lt ?_
  have hlen : (xs.take k).length ≤ k := List.length_take_le k xs
  omega

theorem stateBefore_take (h : SeesAhead w step) (xs : List ι) (k : Nat) (s : σ) :
    stateBefore (step (xs.take (k + w))) (xs.take (k + w)) s k = stateBefore (step xs) xs s k :=
  congrArg Prod.fst (h.run_take xs k s)

theorem outputBefore_take (h : SeesAhead w step) (xs : List ι) (k : Nat) (s : σ) :
    outputBefore (step (xs.take (k + w))) (xs.take (k + w)) s k = outputBefore (step xs) xs s k :=
  congrArg Prod.snd (h.run_take xs k s)

end SeesAhead

end EvmRecorder.Machine
