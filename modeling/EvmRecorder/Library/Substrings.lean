import Mathlib.Data.List.Infix
import Mathlib.Tactic

/-!
# First occurrences

What stands behind the first occurrence of a pattern in a text. A pattern that ends
with a letter it has nowhere else cannot overlap itself, so that its first occurrence
is the one at the end of any text without the pattern.
-/

namespace EvmRecorder.Substrings

variable {α : Type} [DecidableEq α]

/-- The text behind the first occurrence of `p`. -/
def afterFirst (p : List α) : List α → Option (List α)
  | [] => if p = [] then some [] else none
  | c :: text =>
      if p.isPrefixOf (c :: text) then some ((c :: text).drop p.length) else afterFirst p text

theorem afterFirst_append_self {p : List α} (hp : p ≠ []) (post : List α) :
    afterFirst p (p ++ post) = some post := by
  obtain ⟨c, rest, rfl⟩ := List.exists_cons_of_ne_nil hp
  rw [List.cons_append, afterFirst, if_pos, ← List.cons_append, List.drop_left]
  rw [List.isPrefixOf_iff_prefix, ← List.cons_append]
  exact List.prefix_append _ _

theorem afterFirst_cons {p text : List α} {c : α} (h : ¬ p <+: c :: text) :
    afterFirst p (c :: text) = afterFirst p text := by
  rw [afterFirst, if_neg (by rwa [List.isPrefixOf_iff_prefix])]

section OwnLast

variable {q pre post : List α} {c : α}

omit [DecidableEq α] in
/-- A pattern with a last letter of its own that begins before an occurrence ends
before it. -/
theorem prefix_of_prefix_append (hc : c ∉ q) (hpre : pre ≠ [])
    (h : q ++ [c] <+: pre ++ (q ++ [c] ++ post)) : q ++ [c] <+: pre := by
  rcases List.prefix_or_prefix_of_prefix h (List.prefix_append pre (q ++ [c] ++ post)) with
    hshort | ⟨rest, hrest⟩
  · exact hshort
  rcases List.eq_nil_or_concat rest with rfl | ⟨init, d, rfl⟩
  · rw [List.append_nil] at hrest
    exact hrest ▸ List.prefix_refl pre
  -- otherwise the last letter stands among the others
  rw [List.concat_eq_append, ← List.append_assoc] at hrest
  obtain ⟨rfl, rfl⟩ := List.append_singleton_inj.mp hrest
  have hinit : init ++ [d] <+: pre ++ (init ++ [d]) ++ post := by
    rw [List.append_assoc pre init [d]] at h
    exact (List.prefix_append_right_inj pre).mp h
  have hinside : init ++ [d] <+: pre ++ init := by
    refine List.prefix_of_prefix_length_le hinit ?_ ?_
    · rw [← List.append_assoc, List.append_assoc (pre ++ init)]
      exact List.prefix_append _ _
    · have := List.length_pos_iff.mpr hpre
      rw [List.length_append, List.length_append, List.length_singleton]
      omega
  exact absurd (hinside.subset (List.mem_append_right init List.mem_cons_self)) hc

omit [DecidableEq α] in
/-- Behind a text without the last letter there is no further occurrence. -/
theorem infix_of_infix_append {xs ys : List α} (hc : c ∉ ys) (h : q ++ [c] <:+: xs ++ ys) :
    q ++ [c] <:+: xs := by
  obtain ⟨s, t, hst⟩ := h
  have hprefix : s ++ (q ++ [c]) <+: xs ++ ys := ⟨t, hst⟩
  rcases List.prefix_or_prefix_of_prefix hprefix (List.prefix_append xs ys) with
    hinside | ⟨rest, hrest⟩
  · exact (List.suffix_append s (q ++ [c])).isInfix.trans hinside.isInfix
  rcases List.eq_nil_or_concat rest with rfl | ⟨init, d, rfl⟩
  · rw [List.append_nil] at hrest
    exact ⟨s, [], by rw [List.append_nil, hrest]⟩
  · rw [List.concat_eq_append, ← List.append_assoc, ← List.append_assoc] at hrest
    obtain ⟨-, rfl⟩ := List.append_singleton_inj.mp hrest
    refine absurd ?_ hc
    have hys : init ++ [d] <+: ys := by
      refine (List.prefix_append_right_inj xs).mp ?_
      rw [← List.append_assoc, hrest, List.append_assoc]
      exact hprefix
    exact hys.subset (List.mem_append_right init List.mem_cons_self)

/-- Its first occurrence is the one behind a text without it. -/
theorem afterFirst_append (hc : c ∉ q) (hpre : ¬ q ++ [c] <:+: pre) :
    afterFirst (q ++ [c]) (pre ++ (q ++ [c] ++ post)) = some post := by
  induction pre with
  | nil => exact afterFirst_append_self (List.append_ne_nil_of_right_ne_nil q (List.cons_ne_nil c [])) post
  | cons d pre ih =>
      have hinfix : ¬ q ++ [c] <:+: pre := fun h => hpre (List.infix_cons h)
      rw [List.cons_append, afterFirst_cons, ih hinfix]
      intro hprefix
      exact hpre (prefix_of_prefix_append hc (List.cons_ne_nil d pre) hprefix).isInfix

end OwnLast

end EvmRecorder.Substrings
