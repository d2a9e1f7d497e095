import Mathlib.Data.List.AList

/-!
# Replaying writes

What a reader of a log knows who keeps the last value written under each key.
-/

namespace EvmRecorder.Replay

variable {κ ν : Type} [DecidableEq κ]

/-- The store after the writes. -/
def replay (store : κ → Option ν) (writes : List (κ × ν)) : κ → Option ν :=
  writes.foldl (fun store write => Function.update store write.1 (some write.2)) store

@[simp] theorem replay_nil (store : κ → Option ν) : replay store [] = store := rfl

@[simp] theorem replay_cons (store : κ → Option ν) (write : κ × ν) (writes : List (κ × ν)) :
    replay store (write :: writes) =
      replay (Function.update store write.1 (some write.2)) writes := rfl

theorem replay_append (store : κ → Option ν) (writes writes' : List (κ × ν)) :
    replay store (writes ++ writes') = replay (replay store writes) writes' :=
  List.foldl_append

/-- A key that is not written keeps its value. -/
theorem replay_of_ne {x : κ} : ∀ {writes : List (κ × ν)} (store : κ → Option ν),
    (∀ write ∈ writes, write.1 ≠ x) → replay store writes x = store x
  | [], _, _ => rfl
  | write :: writes, store, h => by
      rw [replay_cons, replay_of_ne _ fun w hw => h w (List.mem_cons_of_mem _ hw),
        Function.update_of_ne (h write List.mem_cons_self).symm]

/-- Writing out a map whose keys are distinct: the keys of the map have its values. -/
theorem replay_entries {x : κ} : ∀ {entries : List (Sigma fun _ : κ => ν)}
    (store : κ → Option ν), entries.NodupKeys →
      replay store (entries.map fun e => (e.1, e.2)) x = (entries.dlookup x).or (store x)
  | [], _, _ => rfl
  | ⟨y, v⟩ :: entries, store, h => by
      obtain ⟨hfresh, hrest⟩ := List.nodupKeys_cons.mp h
      rw [List.map_cons, replay_cons, replay_entries _ hrest]
      by_cases hx : x = y
      · obtain rfl := hx
        rw [List.dlookup_cons_eq, List.dlookup_eq_none.mpr hfresh, Function.update_self]
        rfl
      · rw [List.dlookup_cons_ne _ _ hx, Function.update_of_ne hx]

end EvmRecorder.Replay
