import Mathlib.Tactic

/-!
# Walks in a tree

A path is a walk in a tree of directories: it stays where it is, goes up, or goes down to
a child. A place is the list of names from the root. Going up at the root stays there. A
walk that never goes above the place it starts from ends below it, any other may end
elsewhere.
-/

namespace EvmRecorder.PathWalk

inductive Step (α : Type*) where
  | stay
  | up
  | down (name : α)
deriving DecidableEq, Repr

variable {α : Type*}

def move (place : List α) : Step α → List α
  | .stay => place
  | .up => place.dropLast
  | .down name => place ++ [name]

def walk (place : List α) (steps : List (Step α)) : List α := steps.foldl move place

/-- The walk never goes above the place that is `depth` levels above its start. -/
def staysBelow : Nat → List (Step α) → Bool
  | _, [] => true
  | depth, .stay :: rest => staysBelow depth rest
  | 0, .up :: _ => false
  | depth + 1, .up :: rest => staysBelow depth rest
  | depth, .down _ :: rest => staysBelow (depth + 1) rest

@[simp] theorem walk_nil (place : List α) : walk place [] = place := rfl

@[simp] theorem walk_cons (place : List α) (step : Step α) (rest : List (Step α)) :
    walk place (step :: rest) = walk (move place step) rest := rfl

theorem walk_append (place : List α) (first second : List (Step α)) :
    walk place (first ++ second) = walk (walk place first) second := List.foldl_append

/-- The names above are kept. -/
theorem prefix_walk (base : List α) : ∀ {steps : List (Step α)} {below : List α},
    staysBelow below.length steps = true → base <+: walk (base ++ below) steps
  | [], below, _ => List.prefix_append base below
  | .stay :: rest, below, h => by
      rw [staysBelow] at h
      rw [walk_cons, move]
      exact prefix_walk base h
  | .up :: rest, below, h => by
      rcases List.eq_nil_or_concat below with rfl | ⟨below, name, rfl⟩
      · cases h
      · rw [List.concat_eq_append, List.length_append, List.length_singleton, staysBelow] at h
        rw [walk_cons, move, List.concat_eq_append, ← List.append_assoc, List.dropLast_concat]
        exact prefix_walk base h
  | .down name :: rest, below, h => by
      have hlength : (below ++ [name]).length = below.length + 1 := by
        rw [List.length_append, List.length_singleton]
      rw [staysBelow, ← hlength] at h
      rw [walk_cons, move, List.append_assoc]
      exact prefix_walk base h

/-- A walk that goes above a place ends where it would have ended from its siblings. -/
theorem walk_sibling (base : List α) (a b : α) : ∀ {steps : List (Step α)} {below : List α},
    staysBelow below.length steps = false →
      walk (base ++ a :: below) steps = walk (base ++ b :: below) steps
  | [], _, h => nomatch h
  | .stay :: rest, below, h => by
      rw [staysBelow] at h
      rw [walk_cons, walk_cons, move, move]
      exact walk_sibling base a b h
  | .up :: rest, below, h => by
      rcases List.eq_nil_or_concat below with rfl | ⟨below, name, rfl⟩
      · rw [walk_cons, walk_cons, move, move, List.dropLast_concat, List.dropLast_concat]
      · rw [List.concat_eq_append, List.length_append, List.length_singleton, staysBelow] at h
        rw [walk_cons, walk_cons, move, move, List.concat_eq_append, ← List.cons_append,
          ← List.cons_append, ← List.append_assoc, ← List.append_assoc, List.dropLast_concat,
          List.dropLast_concat]
        exact walk_sibling base a b h
  | .down name :: rest, below, h => by
      have hlength : (below ++ [name]).length = below.length + 1 := by
        rw [List.length_append, List.length_singleton]
      rw [staysBelow, ← hlength] at h
      rw [walk_cons, walk_cons, move, move, List.append_assoc, List.append_assoc,
        List.cons_append, List.cons_append]
      exact walk_sibling base a b h

/-- From two siblings only a walk that stays below its start ends below both. -/
theorem staysBelow_of_siblings {base : List α} {a b : α} (hne : a ≠ b) {steps : List (Step α)}
    (ha : base ++ [a] <+: walk (base ++ [a]) steps)
    (hb : base ++ [b] <+: walk (base ++ [b]) steps) : staysBelow 0 steps = true := by
  by_contra habove
  have hsame : walk (base ++ [a]) steps = walk (base ++ [b]) steps :=
    @walk_sibling _ base a b _ [] (Bool.eq_false_iff.mpr habove)
  rw [← hsame] at hb
  have hlength : (base ++ [a]).length = (base ++ [b]).length := by
    rw [List.length_append, List.length_append, List.length_singleton, List.length_singleton]
  have heq := (List.prefix_of_prefix_length_le ha hb hlength.le).eq_of_length hlength
  exact hne (List.append_singleton_inj.mp heq).2

end EvmRecorder.PathWalk
