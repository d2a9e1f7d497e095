import Mathlib.Order.Interval.Set.Disjoint
import Mathlib.Tactic
import Mathlib.Order.CompletePartialOrder

/-!
# Bump allocation

An allocator that hands out the range from its pointer to a new pointer, and whose
pointer is never moved back: the ranges are in order, so they are disjoint.
-/

namespace EvmRecorder

/-- The half-open ranges allocated so far, oldest first, and a pointer behind them. -/
structure BumpAllocator (α : Type) [LinearOrder α] where
  ranges : List (α × α)
  pointer : α
  ordered : ranges.Pairwise fun r r' => r.2 ≤ r'.1
  below : ∀ r ∈ ranges, r.2 ≤ pointer

namespace BumpAllocator

variable {α : Type} [LinearOrder α]

def empty (pointer : α) : BumpAllocator α := ⟨[], pointer, .nil, by simp⟩

def advance (self : BumpAllocator α) (p : α) (h : self.pointer ≤ p) : BumpAllocator α where
  ranges := self.ranges
  pointer := p
  ordered := self.ordered
  below r hr := (self.below r hr).trans h

/-- Allocate from the pointer, or from behind it. -/
def alloc (self : BumpAllocator α) (lo hi : α) (hlo : self.pointer ≤ lo) (hhi : lo ≤ hi) :
    BumpAllocator α where
  ranges := self.ranges ++ [(lo, hi)]
  pointer := hi
  ordered := by
    rw [List.pairwise_append]
    refine ⟨self.ordered, List.pairwise_singleton _ _, ?_⟩
    intro r hr r' hr'
    obtain rfl := List.mem_singleton.mp hr'
    exact (self.below r hr).trans hlo
  below := by
    intro r hr
    rcases List.mem_append.mp hr with hr | hr
    · exact (self.below r hr).trans (hlo.trans hhi)
    · obtain rfl := List.mem_singleton.mp hr
      exact le_rfl

@[simp] theorem ranges_empty (p : α) : (empty p).ranges = [] := rfl

@[simp] theorem ranges_advance (self : BumpAllocator α) {p : α} (h : self.pointer ≤ p) :
    (self.advance p h).ranges = self.ranges := rfl

@[simp] theorem ranges_alloc (self : BumpAllocator α) {lo hi : α} (hlo : self.pointer ≤ lo)
    (hhi : lo ≤ hi) : (self.alloc lo hi hlo hhi).ranges = self.ranges ++ [(lo, hi)] := rfl

/-- No address is in two ranges. -/
theorem disjoint (self : BumpAllocator α) : self.ranges.Pairwise fun r r' =>
    Disjoint (Set.Ico r.1 r.2) (Set.Ico r'.1 r'.2) := by
  refine self.ordered.imp ?_
  intro r r' h
  rw [Set.Ico_disjoint_Ico]
  exact (min_le_left _ _).trans (h.trans (le_max_right _ _))

end BumpAllocator

end EvmRecorder
