import Mathlib.Tactic

/-!
# Stores with checkpoints

A store under nested transactions: each open transaction has the store it
started from, a transaction that fails restores it, one that succeeds keeps the
writes. A value outlives every transaction that started after it was written and
every one that succeeds.
-/

namespace EvmRecorder

/-- The store, and the checkpoints of the open transactions, innermost first. -/
structure Journal (κ ν : Type) where
  current : κ → ν
  checkpoints : List (κ → ν)

namespace Journal

variable {κ ν : Type}

/-! ## §1  Operations -/

def write [DecidableEq κ] (self : Journal κ ν) (x : κ) (v : ν) : Journal κ ν :=
  { self with current := Function.update self.current x v }

def enter (self : Journal κ ν) : Journal κ ν :=
  { self with checkpoints := self.current :: self.checkpoints }

def leave (self : Journal κ ν) (failed : Bool) : Journal κ ν :=
  match self.checkpoints with
  | [] => self
  | c :: cs => ⟨if failed then c else self.current, cs⟩

def enterMany : Nat → Journal κ ν → Journal κ ν
  | 0, self => self
  | n + 1, self => enterMany n self.enter

/-- Leave the `n` levels above `depth`, innermost first. -/
def leaveMany (failed : Nat → Bool) (depth : Nat) : Nat → Journal κ ν → Journal κ ν
  | 0, self => self
  | n + 1, self => leaveMany failed depth n (self.leave (failed (depth + n + 1)))

/-- From nesting depth `prev` to `depth`; `failed` tells the levels that fail. -/
def moveTo (failed : Nat → Bool) (prev depth : Nat) (self : Journal κ ν) : Journal κ ν :=
  if prev < depth then enterMany (depth - prev) self
  else leaveMany failed depth (prev - depth) self

/-! ## §2  Values that outlive transactions -/

/-- `x` has the value `v`, now and at the start of the `m` innermost
transactions. -/
def Holds (x : κ) (v : ν) (m : Nat) (self : Journal κ ν) : Prop :=
  self.current x = v ∧ ∀ c ∈ self.checkpoints.take m, c x = v

variable {x y : κ} {v w : ν} {m : Nat} {self : Journal κ ν}

theorem holds_write_self [DecidableEq κ] (self : Journal κ ν) : (self.write x v).Holds x v 0 := by
  constructor
  · exact Function.update_self x v self.current
  · intro c hc
    rw [List.take_zero] at hc
    cases hc

theorem Holds.write_ne [DecidableEq κ] (h : self.Holds x v m) (hne : x ≠ y) :
    (self.write y w).Holds x v m := by
  obtain ⟨hcurrent, hcheckpoints⟩ := h
  refine ⟨?_, hcheckpoints⟩
  rw [← hcurrent]
  exact Function.update_of_ne hne w self.current

theorem Holds.enterMany (h : self.Holds x v m) (n : Nat) :
    (self.enterMany n).Holds x v (m + n) := by
  induction n generalizing self m with
  | zero => exact h
  | succ n ih =>
      have hentered : self.enter.Holds x v (m + 1) := by
        refine ⟨h.1, ?_⟩
        intro c hc
        rcases List.mem_cons.mp hc with rfl | hc
        · exact h.1
        · exact h.2 c hc
      have hrest := ih hentered
      rwa [Nat.add_right_comm] at hrest

theorem Holds.leave (h : self.Holds x v m) {failed : Bool} (hfailed : m = 0 → failed = false) :
    (self.leave failed).Holds x v (m - 1) := by
  obtain ⟨hcurrent, hcheckpoints⟩ := h
  unfold Journal.leave
  cases hcs : self.checkpoints with
  | nil =>
      refine ⟨hcurrent, ?_⟩
      intro c hc
      rw [hcs, List.take_nil] at hc
      cases hc
  | cons c cs =>
      rw [hcs] at hcheckpoints
      cases m with
      | zero =>
          rw [hfailed rfl]
          exact ⟨hcurrent, fun c' hc' => by cases hc'⟩
      | succ m =>
          have hc : c x = v := hcheckpoints c List.mem_cons_self
          refine ⟨?_, fun c' hc' => hcheckpoints c' (List.mem_cons_of_mem _ hc')⟩
          show (if failed then c else self.current) x = v
          split
          · exact hc
          · exact hcurrent

/-- Of the levels left, those that the value is older than must succeed. -/
theorem Holds.leaveMany {failed : Nat → Bool} {depth : Nat} : ∀ (n : Nat) {m : Nat}
    {self : Journal κ ν}, self.Holds x v m →
      (∀ l, depth < l → l + m ≤ depth + n → failed l = false) →
        (self.leaveMany failed depth n).Holds x v (m - n)
  | 0, _, _, h, _ => h
  | n + 1, m, self, h, hfailed => by
      have hleft : (self.leave (failed (depth + n + 1))).Holds x v (m - 1) := by
        refine h.leave fun hm => hfailed _ ?_ ?_
        · omega
        · omega
      have hrest := Holds.leaveMany n hleft fun l hl hle => hfailed l hl (by omega)
      have hcount : m - 1 - n = m - (n + 1) := by omega
      rw [hcount] at hrest
      exact hrest

/-- A value written when the depth was at least `low` and has been since: a
change of depth keeps it if no level up to `low` that is left fails. -/
theorem Holds.moveTo {failed : Nat → Bool} {prev depth low : Nat} (hlow : low ≤ prev)
    (h : self.Holds x v (prev - low)) (hfailed : ∀ l, depth < l → l ≤ low → failed l = false) :
    (self.moveTo failed prev depth).Holds x v (depth - min low depth) := by
  unfold Journal.moveTo
  split
  · next hlt =>
      have hrise := h.enterMany (depth - prev)
      have hcount : prev - low + (depth - prev) = depth - min low depth := by omega
      rwa [hcount] at hrise
  · next hge =>
      have hdrop : (self.leaveMany failed depth (prev - depth)).Holds x v
          (prev - low - (prev - depth)) :=
        h.leaveMany (prev - depth) fun l hl hle => hfailed l hl (by omega)
      have hcount : prev - low - (prev - depth) = depth - min low depth := by omega
      rwa [hcount] at hdrop

end Journal

end EvmRecorder
