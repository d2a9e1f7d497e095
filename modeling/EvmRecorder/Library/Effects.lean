import Mathlib.Data.List.Basic

/-!
# Programs that call outside

A program makes calls one after another; what is answered may depend on the calls
made so far, and the first failure ends it. Which call may be made after which is a
relation `may` between the calls made so far and the next one. A program meets a
precondition and a postcondition on the calls made, and obeys `may` throughout; the
rules follow the way programs are put together.
-/

namespace EvmRecorder.Effects

variable {κ ε α β : Type}

/-! ## §1  Programs -/

/-- From the calls made before, the calls that are made and the result. -/
def Program (κ ε α : Type) : Type := List κ → List κ × Except ε α

namespace Program

/-- The second program starts with the calls of the first one made. -/
def andThen (p : Program κ ε α) (f : α → Program κ ε β) : Program κ ε β := fun made =>
  match p made with
  | (calls, .error e) => (calls, .error e)
  | (calls, .ok x) => (calls ++ (f x (made ++ calls)).1, (f x (made ++ calls)).2)

instance : Monad (Program κ ε) where
  pure x := fun _ => ([], .ok x)
  bind := andThen

/-- A call and its answer. -/
def call (c : κ) (answer : List κ → Except ε α) : Program κ ε α := fun made => ([c], answer made)

/-- Calls that are answered all together. -/
def callAll (cs : List κ) (answer : Except ε α) : Program κ ε α := fun _ => (cs, answer)

/-- An answer without a call. -/
def query (answer : List κ → Except ε α) : Program κ ε α := fun made => ([], answer made)

/-- A result that is known. -/
def ofExcept (result : Except ε α) : Program κ ε α := fun _ => ([], result)

end Program

/-! ## §2  Calls that may be made -/

variable {may : List κ → κ → Prop} {made cs cs' : List κ}

/-- Every call may be made after those before it. -/
def Allowed (may : List κ → κ → Prop) (made cs : List κ) : Prop :=
  ∀ pre c post, cs = pre ++ c :: post → may (made ++ pre) c

theorem Allowed.nil : Allowed may made [] := by
  intro pre c post h
  cases pre <;> cases h

theorem Allowed.single {c : κ} (h : may made c) : Allowed may made [c] := by
  intro pre c' post hcs
  rcases pre with _ | ⟨c'', pre⟩
  · obtain ⟨rfl, -⟩ := List.cons.inj hcs
    rwa [List.append_nil]
  · obtain ⟨-, hrest⟩ := List.cons.inj hcs
    cases pre <;> cases hrest

theorem Allowed.mono {may' : List κ → κ → Prop} (h : Allowed may made cs)
    (hmay : ∀ made c, may made c → may' made c) : Allowed may' made cs :=
  fun pre c post hcs => hmay _ _ (h pre c post hcs)

theorem Allowed.append (h : Allowed may made cs) (h' : Allowed may (made ++ cs) cs') :
    Allowed may made (cs ++ cs') := by
  intro pre c post hcs
  rcases List.append_eq_append_iff.mp hcs with ⟨between, rfl, hpost⟩ | ⟨between, rfl, hpost⟩
  · rw [← List.append_assoc]
    exact h' between c post hpost
  · rcases between with _ | ⟨c', between⟩
    · rw [List.nil_append] at hpost
      rw [← List.append_nil (made ++ pre), List.append_assoc]
      simpa using h' [] c post hpost.symm
    · obtain ⟨rfl, hbetween⟩ := List.cons.inj hpost
      exact h pre c between rfl

/-! ## §3  Pre- and postconditions -/

/-- After calls with `P` only allowed calls are made, and a result comes with `Q`. -/
structure Meets (may : List κ → κ → Prop) (P : List κ → Prop) (p : Program κ ε α)
    (Q : α → List κ → Prop) : Prop where
  allowed : ∀ made, P made → Allowed may made (p made).1
  result : ∀ made x, P made → (p made).2 = .ok x → Q x (made ++ (p made).1)

namespace Meets

variable {P : List κ → Prop} {p : Program κ ε α} {Q : α → List κ → Prop}

theorem mono {may' : List κ → κ → Prop} (h : Meets may P p Q)
    (hmay : ∀ made c, may made c → may' made c) : Meets may' P p Q where
  allowed made hP := (h.allowed made hP).mono hmay
  result := h.result

theorem strengthen {P' : List κ → Prop} (h : Meets may P p Q) (hP : ∀ made, P' made → P made) :
    Meets may P' p Q where
  allowed made hP' := h.allowed made (hP made hP')
  result made x hP' := h.result made x (hP made hP')

theorem weaken {Q' : α → List κ → Prop} (h : Meets may P p Q)
    (hQ : ∀ x made, Q x made → Q' x made) : Meets may P p Q' where
  allowed := h.allowed
  result made x hP hx := hQ x _ (h.result made x hP hx)

protected theorem pure {x : α} (h : ∀ made, P made → Q x made) :
    Meets may P (pure x : Program κ ε α) Q where
  allowed _ _ := .nil
  result made y hP hy := by
    cases hy
    show Q x (made ++ [])
    rw [List.append_nil]
    exact h made hP

theorem call {c : κ} {answer : List κ → Except ε α} (hmay : ∀ made, P made → may made c)
    (h : ∀ made x, P made → answer made = .ok x → Q x (made ++ [c])) :
    Meets may P (Program.call c answer) Q where
  allowed made hP := .single (hmay made hP)
  result := h

theorem callAll {answer : Except ε α} (hallowed : ∀ made, P made → Allowed may made cs)
    (h : ∀ made x, P made → answer = .ok x → Q x (made ++ cs)) :
    Meets may P (Program.callAll cs answer) Q where
  allowed := hallowed
  result := h

theorem query {answer : List κ → Except ε α}
    (h : ∀ made x, P made → answer made = .ok x → Q x made) :
    Meets may P (Program.query answer) Q where
  allowed _ _ := .nil
  result made x hP hx := by
    show Q x (made ++ [])
    rw [List.append_nil]
    exact h made x hP hx

theorem ofExcept {r : Except ε α} (h : ∀ made x, P made → r = .ok x → Q x made) :
    Meets may P (Program.ofExcept r) Q :=
  query h

theorem bind {R : β → List κ → Prop} {f : α → Program κ ε β} (h : Meets may P p Q)
    (hf : ∀ x, Meets may (Q x) (f x) R) : Meets may P (p >>= f) R where
  allowed made hP := by
    show Allowed may made (Program.andThen p f made).1
    unfold Program.andThen
    have hfirst := h.allowed made hP
    have hnext := h.result made
    rcases hp : p made with ⟨calls, _ | x⟩
    · rw [hp] at hfirst
      exact hfirst
    · rw [hp] at hfirst hnext
      exact hfirst.append ((hf x).allowed _ (hnext x hP rfl))
  result made y hP := by
    show (Program.andThen p f made).2 = .ok y → R y (made ++ (Program.andThen p f made).1)
    unfold Program.andThen
    have hnext := h.result made
    rcases hp : p made with ⟨calls, _ | x⟩
    · exact fun hy => nomatch hy
    · rw [hp] at hnext
      dsimp only
      intro hy
      rw [← List.append_assoc]
      exact (hf x).result _ y (hnext x hP rfl) hy

/-- The answer was given before the call was made. -/
theorem bind_call {R : β → List κ → Prop} {c : κ} {answer : List κ → Except ε α}
    {f : α → Program κ ε β} (hmay : ∀ made, P made → may made c)
    (hf : ∀ x, Meets may
      (fun made => ∃ before, P before ∧ made = before ++ [c] ∧ answer before = .ok x) (f x) R) :
    Meets may P (Program.call c answer >>= f) R :=
  (call hmay fun made _ hP hx => ⟨made, hP, rfl, hx⟩).bind hf

/-- What the answer says is known from there on. -/
theorem bind_query {R : β → List κ → Prop} {answer : List κ → Except ε α}
    {f : α → Program κ ε β}
    (hf : ∀ x, Meets may (fun made => P made ∧ answer made = .ok x) (f x) R) :
    Meets may P (Program.query answer >>= f) R :=
  (query fun _ _ hP hx => ⟨hP, hx⟩).bind hf

theorem bind_ofExcept {R : β → List κ → Prop} {result : Except ε α} {f : α → Program κ ε β}
    (hf : ∀ x, result = .ok x → Meets may P (f x) R) :
    Meets may P (Program.ofExcept result >>= f) R where
  allowed made hP := by
    show Allowed may made (Program.andThen (.ofExcept result) f made).1
    unfold Program.andThen Program.ofExcept
    cases hresult : result with
    | error e => exact .nil
    | ok x =>
        have hnext := (hf x hresult).allowed made hP
        simpa using hnext
  result made y hP := by
    show (Program.andThen (.ofExcept result) f made).2 = .ok y →
      R y (made ++ (Program.andThen (.ofExcept result) f made).1)
    unfold Program.andThen Program.ofExcept
    cases hresult : result with
    | error e => exact fun hy => nomatch hy
    | ok x =>
        have hnext := (hf x hresult).result made y hP
        simpa using hnext

theorem error {e : ε} : Meets may P (Program.ofExcept (.error e) : Program κ ε α) Q where
  allowed _ _ := .nil
  result _ _ _ hx := nomatch hx

theorem ite {c : Prop} [Decidable c] {q : Program κ ε α} (hp : c → Meets may P p Q)
    (hq : ¬ c → Meets may P q Q) : Meets may P (if c then p else q) Q := by
  split
  · exact hp ‹c›
  · exact hq ‹¬ c›

end Meets

end EvmRecorder.Effects
