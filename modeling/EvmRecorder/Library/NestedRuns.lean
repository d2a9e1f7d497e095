import Mathlib.Tactic

/-!
# Runs of nested frames

What happens inside one frame: steps, notes and whole sub-frames, in order. A
run is told to an observer as signals, with a frame's entry and exit around what
happens in it. Each step has a depth, the number of frames open around it; where
a frame is only ever entered from a step, the depth rises by at most one from
step to step.
-/

namespace EvmRecorder

/-- The rest of a frame. -/
inductive NestedRun (φ ε ν : Type) where
  | done
  | step (e : ε) (rest : NestedRun φ ε ν)
  | note (n : ν) (rest : NestedRun φ ε ν)
  | frame (f : φ) (body rest : NestedRun φ ε ν)

inductive Signal (φ ε ν : Type) where
  | enter (f : φ)
  | leave (f : φ)
  | step (e : ε)
  | note (n : ν)

namespace NestedRun

variable {φ ε ν : Type}

def signals : NestedRun φ ε ν → List (Signal φ ε ν)
  | .done => []
  | .step e rest => .step e :: rest.signals
  | .note n rest => .note n :: rest.signals
  | .frame f body rest => .enter f :: (body.signals ++ .leave f :: rest.signals)

/-- The steps with their depths, in a frame of depth `d`. -/
def stepsAt (d : Nat) : NestedRun φ ε ν → List (Nat × ε)
  | .done => []
  | .step e rest => (d, e) :: rest.stepsAt d
  | .note _ rest => rest.stepsAt d
  | .frame _ body rest => body.stepsAt (d + 1) ++ rest.stepsAt d

/-- The frames, each before those entered in it. -/
def frames : NestedRun φ ε ν → List φ
  | .done => []
  | .step _ rest => rest.frames
  | .note _ rest => rest.frames
  | .frame f body rest => f :: (body.frames ++ rest.frames)

def notes : NestedRun φ ε ν → List ν
  | .done => []
  | .step _ rest => rest.notes
  | .note n rest => n :: rest.notes
  | .frame _ body rest => body.notes ++ rest.notes

/-- Every frame is entered after a step of the frame around it; `stepped` when one
has been made. -/
def EnteredBySteps : Bool → NestedRun φ ε ν → Prop
  | _, .done => True
  | _, .step _ rest => EnteredBySteps true rest
  | stepped, .note _ rest => EnteredBySteps stepped rest
  | stepped, .frame _ body rest =>
      stepped = true ∧ EnteredBySteps false body ∧ EnteredBySteps stepped rest

theorem le_depth_of_mem_stepsAt {run : NestedRun φ ε ν} {d : Nat} {x : Nat × ε}
    (hx : x ∈ run.stepsAt d) : d ≤ x.1 := by
  induction run generalizing d with
  | done => cases hx
  | step e rest ih =>
      rcases List.mem_cons.mp hx with rfl | hx
      · exact Nat.le_refl d
      · exact ih hx
  | note n rest ih => exact ih hx
  | frame f body rest ihbody ihrest =>
      rcases List.mem_append.mp hx with hx | hx
      · exact Nat.le_of_succ_le (ihbody hx)
      · exact ihrest hx

/-- One step further in the sense of frames: at most one frame deeper. -/
abbrev AtMostDeeper (d d' : Nat) : Prop := d' ≤ d + 1

theorem isChain_of_le {p q : Nat} {depths : List Nat} (hpq : p ≤ q)
    (h : (p :: depths).IsChain AtMostDeeper) : (q :: depths).IsChain AtMostDeeper := by
  cases depths with
  | nil => exact .singleton q
  | cons d depths =>
      obtain ⟨hd, hrest⟩ := List.isChain_cons_cons.mp h
      exact .cons_cons (Nat.le_trans hd (Nat.succ_le_succ hpq)) hrest

/-- The depths of a run, from a step at depth `p` before it to the steps `tail` after
it: the run ends where it began or inside its own frame. -/
theorem isChain_depths_append {run : NestedRun φ ε ν} {stepped : Bool} {d p : Nat}
    {tail : List Nat} (h : EnteredBySteps stepped run) (hstepped : stepped = true → d ≤ p)
    (hle : d ≤ p + 1) (hp : (p :: tail).IsChain AtMostDeeper)
    (hd : (d :: tail).IsChain AtMostDeeper) :
    (p :: ((run.stepsAt d).map Prod.fst ++ tail)).IsChain AtMostDeeper := by
  induction run generalizing stepped d p tail with
  | done => exact hp
  | step e rest ih => exact .cons_cons hle (ih h (fun _ => Nat.le_refl d) (Nat.le_succ d) hd hd)
  | note n rest ih => exact ih h hstepped hle hp hd
  | frame f body rest ihbody ihrest =>
      obtain ⟨hentered, hbody, hrest⟩ := h
      have hdp : d ≤ p := hstepped hentered
      have hafter : ∀ q, d ≤ q → (q :: tail).IsChain AtMostDeeper →
          (q :: ((rest.stepsAt d).map Prod.fst ++ tail)).IsChain AtMostDeeper := fun q hq hq' =>
        ihrest hrest (fun _ => hq) (Nat.le_succ_of_le hq) hq' hd
      rw [stepsAt, List.map_append, List.append_assoc]
      exact ihbody hbody (fun hfalse => by cases hfalse) (Nat.succ_le_succ hdp)
        (hafter p hdp hp) (hafter (d + 1) (Nat.le_succ d) (isChain_of_le (Nat.le_succ d) hd))

/-- What happens in a frame entered at depth `d`. -/
theorem isChain_depths {run : NestedRun φ ε ν} (h : EnteredBySteps false run) (d : Nat) :
    (d :: (run.stepsAt (d + 1)).map Prod.fst).IsChain AtMostDeeper := by
  have hchain := isChain_depths_append h (fun hfalse => by cases hfalse) (Nat.le_refl (d + 1))
    (.singleton d) (.singleton (d + 1))
  rwa [List.append_nil] at hchain

end NestedRun

end EvmRecorder
