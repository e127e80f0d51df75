import Mathlib.Logic.Basic

/-!
# Pre- and postconditions for programs with state and errors

A program of `EStateM ε σ α` runs from a state to a value and a state, or raises
an error and stops in the state it has reached: what it wrote before the error
stays written. `Triple P x Q R` says that from every state satisfying `P` the
program returns `a` in a state satisfying `Q a`, or raises `e` in a state
satisfying `R e`.

The rules follow the ways such a program is built: `pure`, `throw`, `bind`, the
state operations, a conditional, and consequence. A program that leaves a
property of the state alone (`Triple.Keeps`) keeps it through every `bind`.
-/

namespace EStateM

variable {ε σ α β : Type}

/-- The state a program stopped in, whether it returned or failed. -/
def Result.state : Result ε σ α → σ
  | .ok _ s | .error _ s => s

@[simp] theorem Result.state_ok (a : α) (s : σ) : (Result.ok a s : Result ε σ α).state = s := rfl

@[simp] theorem Result.state_error (e : ε) (s : σ) : (Result.error e s : Result ε σ α).state = s :=
  rfl

/-- What a result satisfies: `Q` of its value and state, or `R` of its error and
state. -/
def Result.Satisfies (Q : α → σ → Prop) (R : ε → σ → Prop) : Result ε σ α → Prop
  | .ok a s => Q a s
  | .error e s => R e s

def Triple (P : σ → Prop) (x : EStateM ε σ α) (Q : α → σ → Prop) (R : ε → σ → Prop) : Prop :=
  ∀ s, P s → (x s).Satisfies Q R

namespace Triple

variable {P P' : σ → Prop} {Q Q' : α → σ → Prop} {R R' : ε → σ → Prop} {x : EStateM ε σ α}

theorem conseq (h : Triple P x Q R) (hp : ∀ s, P' s → P s) (hq : ∀ a s, Q a s → Q' a s)
    (hr : ∀ e s, R e s → R' e s) : Triple P' x Q' R' := by
  intro s hs
  have hx := h s (hp s hs)
  revert hx
  cases x s with
  | ok a s' => exact hq a s'
  | error e s' => exact hr e s'

theorem pre (h : Triple P x Q R) (hp : ∀ s, P' s → P s) : Triple P' x Q R :=
  h.conseq hp (fun _ _ => id) fun _ _ => id

theorem pure (a : α) : Triple (Q a) (Pure.pure a : EStateM ε σ α) Q R := fun _ h => h

/-- `pure` leaves the state as it found it. -/
theorem ret (a : α) : Triple P (Pure.pure a : EStateM ε σ α) (fun _ => P) R := fun _ h => h

theorem throw (e : ε) : Triple (R e) (MonadExcept.throw e : EStateM ε σ α) Q R := fun _ h => h

theorem get {Q : σ → σ → Prop} : Triple (fun s => Q s s) (MonadState.get : EStateM ε σ σ) Q R :=
  fun _ h => h

theorem modify {Q : PUnit → σ → Prop} (f : σ → σ) :
    Triple (fun s => Q ⟨⟩ (f s)) (modify f : EStateM ε σ PUnit) Q R :=
  fun _ h => h

theorem bind {S : β → σ → Prop} {f : α → EStateM ε σ β} (hx : Triple P x Q R)
    (hf : ∀ a, Triple (Q a) (f a) S R) : Triple P (x >>= f) S R := by
  intro s hs
  have h := hx s hs
  show (match x s with
    | .ok a s' => f a s'
    | .error e s' => .error e s').Satisfies S R
  revert h
  cases x s with
  | ok a s' => exact hf a s'
  | error e s' => exact id

/-- A program that reads the state may be proved for each state it reads. -/
theorem get_bind {f : σ → EStateM ε σ α} (h : ∀ s₁, Triple (fun s => P s ∧ s = s₁) (f s₁) Q R) :
    Triple P (MonadState.get >>= f) Q R :=
  fun s hs => h s s ⟨hs, rfl⟩

/-- The state a program was proved for, and what the precondition says of it,
may be assumed. -/
theorem of_state {s₁ : σ} (h : P s₁ → Triple (fun s => P s ∧ s = s₁) x Q R) :
    Triple (fun s => P s ∧ s = s₁) x Q R := by
  rintro s ⟨hs, rfl⟩
  exact h hs s ⟨hs, rfl⟩

theorem ite {c : Prop} [Decidable c] {y : EStateM ε σ α} (hx : c → Triple P x Q R)
    (hy : ¬c → Triple P y Q R) : Triple P (if c then x else y) Q R := by
  by_cases h : c
  · rw [if_pos h]
    exact hx h
  · rw [if_neg h]
    exact hy h

/-- `x` keeps `I`: from a state where `I` holds it returns, or fails, in one
where `I` holds. -/
def Keeps (I : σ → Prop) (x : EStateM ε σ α) : Prop :=
  Triple I x (fun _ => I) fun _ => I

theorem Keeps.bind {I : σ → Prop} {f : α → EStateM ε σ β} (hx : Keeps I x)
    (hf : ∀ a, Keeps I (f a)) : Keeps I (x >>= f) :=
  Triple.bind hx hf

theorem Keeps.pure {I : σ → Prop} (a : α) : Keeps I (Pure.pure a : EStateM ε σ α) :=
  fun _ h => h

theorem Keeps.throw {I : σ → Prop} (e : ε) : Keeps I (MonadExcept.throw e : EStateM ε σ α) :=
  fun _ h => h

theorem Keeps.get {I : σ → Prop} : Keeps I (MonadState.get : EStateM ε σ σ) :=
  fun _ h => h

/-- A loop keeps what each of its steps keeps. -/
theorem Keeps.forM {I : σ → Prop} {f : α → EStateM ε σ PUnit} {xs : List α}
    (h : ∀ x ∈ xs, Keeps I (f x)) : Keeps I (xs.forM f) := by
  induction xs with
  | nil => exact Keeps.pure _
  | cons x xs ih =>
    exact Keeps.bind (h x List.mem_cons_self) fun _ =>
      ih fun y hy => h y (List.mem_cons_of_mem _ hy)

end Triple

end EStateM
