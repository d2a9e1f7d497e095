import EvmRecorder.Library.Run

/-!
# Streams that declare what they use

A stream of events, some of which declare names and some of which use them. An
event is judged by the names known when it is issued: those known at the start
of the stream and those declared earlier in it. A stream is scoped when every
use is of a known name, and declares once when no known name is declared again.
Both are put together from the blocks of a stream and from the steps of a
machine.
-/

namespace EvmRecorder.Scoping

variable {ω ω' δ σ ι : Type}

/-! ## §1  Admitted streams -/

section

variable (declares : ω → List δ)

/-- The names a stream declares. -/
def declared (es : List ω) : Set δ := {d | ∃ e ∈ es, d ∈ declares e}

/-- Every event is admitted by the names known when it is issued. -/
def Admitted (admits : Set δ → ω → Prop) (known : Set δ) (es : List ω) : Prop :=
  ∀ pre e post, es = pre ++ e :: post → admits (known ∪ declared declares pre) e

end

variable {declares : ω → List δ} {admits : Set δ → ω → Prop} {known known' : Set δ}
  {es es' : List ω}

theorem mem_declared {d : δ} : d ∈ declared declares es ↔ ∃ e ∈ es, d ∈ declares e := Iff.rfl

@[simp] theorem declared_nil : declared declares [] = ∅ := by
  simp [declared]

theorem declared_append :
    declared declares (es ++ es') = declared declares es ∪ declared declares es' := by
  ext d
  simp only [mem_declared, List.mem_append, Set.mem_union, or_and_right, exists_or]

theorem declared_cons {e : ω} :
    declared declares (e :: es) = {d | d ∈ declares e} ∪ declared declares es := by
  ext d
  simp only [mem_declared, List.exists_mem_cons_iff, Set.mem_union, Set.mem_ofPred_eq]

theorem declared_eq_empty (h : ∀ e ∈ es, declares e = []) : declared declares es = ∅ := by
  rw [Set.eq_empty_iff_forall_notMem]
  rintro d ⟨e, he, hd⟩
  rw [h e he] at hd
  cases hd

theorem admitted_nil : Admitted declares admits known [] := by
  intro pre e post h
  cases pre <;> cases h

theorem admitted_cons {e : ω} :
    Admitted declares admits known (e :: es) ↔
      admits known e ∧ Admitted declares admits (known ∪ {d | d ∈ declares e}) es := by
  constructor
  · intro h
    constructor
    · simpa using h [] e es rfl
    · intro pre e' post hes
      have hnext := h (e :: pre) e' post (by rw [hes, List.cons_append])
      rwa [declared_cons, ← Set.union_assoc] at hnext
  · rintro ⟨he, hes⟩ pre e' post h
    cases pre with
    | nil =>
        obtain ⟨rfl, rfl⟩ := List.cons.inj h
        simpa using he
    | cons e'' pre =>
        obtain ⟨rfl, rfl⟩ := List.cons.inj h
        rw [declared_cons, ← Set.union_assoc]
        exact hes pre e' post rfl

theorem admitted_append : ∀ {es : List ω} {known : Set δ},
    Admitted declares admits known (es ++ es') ↔
      Admitted declares admits known es ∧
        Admitted declares admits (known ∪ declared declares es) es'
  | [], known => by
      simp [admitted_nil]
  | e :: es, known => by
      rw [List.cons_append, admitted_cons, admitted_cons, admitted_append, declared_cons,
        Set.union_assoc, and_assoc]

theorem declared_map {declares' : ω' → List δ} (f : ω → ω')
    (hdeclares : ∀ e, declares' (f e) = declares e) :
    declared declares' (es.map f) = declared declares es := by
  ext d
  simp [mem_declared, hdeclares]

/-- The events of a stream inside those of another kind. -/
theorem Admitted.map {declares' : ω' → List δ} {admits' : Set δ → ω' → Prop}
    (h : Admitted declares admits known es) (f : ω → ω') (hdeclares : ∀ e, declares' (f e) = declares e)
    (hadmits : ∀ known e, admits known e → admits' known (f e)) :
    Admitted declares' admits' known (es.map f) := by
  intro pre e post hes
  obtain ⟨pre₀, rest, rfl, rfl, hrest⟩ := List.map_eq_append_iff.mp hes
  obtain ⟨e₀, post₀, rfl, rfl, rfl⟩ := List.map_eq_cons_iff.mp hrest
  rw [declared_map f hdeclares]
  exact hadmits _ _ (h pre₀ e₀ post₀ rfl)

/-! ## §2  Scoped streams -/

/-- Every use is of a known name or of one declared earlier. -/
def Scoped (declares uses : ω → List δ) : Set δ → List ω → Prop :=
  Admitted declares fun known e => ∀ d ∈ uses e, d ∈ known

namespace Scoped

variable {uses : ω → List δ}

theorem nil : Scoped declares uses known [] := admitted_nil

theorem cons {e : ω} (he : ∀ d ∈ uses e, d ∈ known)
    (h : Scoped declares uses (known ∪ {d | d ∈ declares e}) es) :
    Scoped declares uses known (e :: es) :=
  admitted_cons.mpr ⟨he, h⟩

theorem append (h : Scoped declares uses known es)
    (h' : Scoped declares uses (known ∪ declared declares es) es') :
    Scoped declares uses known (es ++ es') :=
  admitted_append.mpr ⟨h, h'⟩

theorem mono (h : Scoped declares uses known es) (hsub : known ⊆ known') :
    Scoped declares uses known' es := by
  intro pre e post hes d hd
  exact Set.union_subset_union_left _ hsub (h pre e post hes d hd)

/-- A block that needs nothing of the block before it. -/
theorem append_of (h : Scoped declares uses known es) (h' : Scoped declares uses known es') :
    Scoped declares uses known (es ++ es') :=
  h.append (h'.mono Set.subset_union_left)

/-- A stream that uses only what is known. -/
theorem of_uses (h : ∀ e ∈ es, ∀ d ∈ uses e, d ∈ known) : Scoped declares uses known es := by
  rintro pre e post rfl d hd
  exact .inl (h e (List.mem_append_right pre List.mem_cons_self) d hd)

theorem flatMap {α : Type} {f : α → List ω} (h : ∀ x, Scoped declares uses known (f x)) :
    ∀ xs : List α, Scoped declares uses known (xs.flatMap f)
  | [] => nil
  | x :: xs => by
      rw [List.flatMap_cons]
      exact (h x).append_of (flatMap h xs)

theorem map {declares' uses' : ω' → List δ} (h : Scoped declares uses known es) (f : ω → ω')
    (hdeclares : ∀ e, declares' (f e) = declares e) (huses : ∀ e, uses' (f e) = uses e) :
    Scoped declares' uses' known (es.map f) :=
  Admitted.map h f hdeclares fun known e he => by rwa [huses]

/-- Over nothing known, every use is of a name declared earlier. -/
theorem exists_declares (h : Scoped declares uses ∅ es) {pre post : List ω} {e : ω}
    (hes : es = pre ++ e :: post) {d : δ} (hd : d ∈ uses e) : ∃ e' ∈ pre, d ∈ declares e' := by
  simpa [mem_declared] using h pre e post hes d hd

end Scoped

/-! ## §3  Streams that declare once -/

/-- No known name is declared again. -/
def DeclaredOnce (declares : ω → List δ) : Set δ → List ω → Prop :=
  Admitted declares fun known e => ∀ d ∈ declares e, d ∉ known

namespace DeclaredOnce

theorem append (h : DeclaredOnce declares known es)
    (h' : DeclaredOnce declares (known ∪ declared declares es) es') :
    DeclaredOnce declares known (es ++ es') :=
  admitted_append.mpr ⟨h, h'⟩

theorem of_declares_nil (h : ∀ e ∈ es, declares e = []) : DeclaredOnce declares known es := by
  rintro pre e post rfl d hd
  rw [h e (List.mem_append_right pre List.mem_cons_self)] at hd
  cases hd

/-- Over nothing known, what an event declares no earlier event does. -/
theorem notMem_of_before (h : DeclaredOnce declares ∅ es) {pre post : List ω} {e : ω}
    (hes : es = pre ++ e :: post) {d : δ} (hd : d ∈ declares e) :
    ∀ e' ∈ pre, d ∉ declares e' := by
  intro e' he' hd'
  exact h pre e post hes d hd (.inr ⟨e', he', hd'⟩)

end DeclaredOnce

/-! ## §4  Machines -/

/-- If every step issues an admitted block and keeps the invariant that ties the
state to the known names, so does a run. -/
theorem admitted_run {step : Nat → ι → σ → σ × List ω} (Inv : Set δ → σ → Prop)
    (hstep : ∀ i x s known, Inv known s →
      Admitted declares admits known (step i x s).2 ∧
        Inv (known ∪ declared declares (step i x s).2) (step i x s).1) :
    ∀ (xs : List ι) (i : Nat) (s : σ) (known : Set δ), Inv known s →
      Admitted declares admits known (Machine.run step i xs s).2 ∧
        Inv (known ∪ declared declares (Machine.run step i xs s).2) (Machine.run step i xs s).1
  | [], i, s, known, h => by
      simpa [Machine.run, admitted_nil] using h
  | x :: xs, i, s, known, h => by
      obtain ⟨hblock, hnext⟩ := hstep i x s known h
      obtain ⟨hrest, hlast⟩ := admitted_run Inv hstep xs (i + 1) (step i x s).1 _ hnext
      rw [Machine.run]
      refine ⟨admitted_append.mpr ⟨hblock, hrest⟩, ?_⟩
      rwa [declared_append, ← Set.union_assoc]

end EvmRecorder.Scoping
