import Mathlib.Algebra.Group.Nat.Defs
import Mathlib.Logic.Basic
import Mathlib.Order.Basic

/-!
# Outcomes of a call, and loops with a fuel budget

A call returns `ok`, the `err` of its `Result` type, a `panic` with its message,
or, for a `while` loop run with a fuel budget, `div` when the budget ends first;
a function without a `Result` type is generic in the error type. The rules here
are those later proofs use: how `bind` composes and inverts, the invariant and
termination rules of `loop`, and unsigned machine arithmetic as a debug build
runs it.
-/

universe u v

inductive Outcome (ε : Type u) (α : Type v) where
  | ok (a : α)
  | err (e : ε)
  | panic (msg : String)
  | div
  deriving DecidableEq, Repr

namespace Outcome

variable {ε : Type u} {α β : Type v}

def bind : Outcome ε α → (α → Outcome ε β) → Outcome ε β
  | ok a, f => f a
  | err e, _ => err e
  | panic m, _ => panic m
  | div, _ => div

instance : Monad (Outcome ε) where
  pure := ok
  bind := bind

instance : LawfulMonad (Outcome ε) :=
  LawfulMonad.mk' _ (fun x => by cases x <;> rfl) (fun _ _ => rfl)
    (fun x _ _ => by cases x <;> rfl)

@[simp] theorem pure_def (a : α) : (pure a : Outcome ε α) = ok a := rfl

@[simp] theorem bind_def (x : Outcome ε α) (f : α → Outcome ε β) :
    x >>= f = x.bind f := rfl

@[simp] theorem ok_bind (a : α) (f : α → Outcome ε β) : (ok a).bind f = f a := rfl

@[simp] theorem err_bind (e : ε) (f : α → Outcome ε β) : (err e).bind f = err e := rfl

@[simp] theorem panic_bind (m : String) (f : α → Outcome ε β) :
    (panic m).bind f = panic m := rfl

@[simp] theorem div_bind (f : α → Outcome ε β) : (div : Outcome ε α).bind f = div := rfl

@[simp] theorem bind_ok (x : Outcome ε α) : x.bind ok = x := by
  cases x <;> rfl

/-- The bind inversion every spec lemma peels computations with. -/
theorem bind_eq_ok {x : Outcome ε α} {f : α → Outcome ε β} {b : β} :
    x.bind f = ok b ↔ ∃ a, x = ok a ∧ f a = ok b := by
  cases x with
  | ok a => simp
  | err e => simp
  | panic m => simp
  | div => simp

/-- The `?` operator through a `From` conversion: an error is converted, every
other outcome is kept. -/
def mapErr {ε' : Type u} (f : ε → ε') : Outcome ε α → Outcome ε' α
  | ok a => ok a
  | err e => err (f e)
  | panic m => panic m
  | div => div

@[simp] theorem mapErr_ok {ε' : Type u} (f : ε → ε') (a : α) :
    (ok a : Outcome ε α).mapErr f = ok a := rfl

@[simp] theorem mapErr_err {ε' : Type u} (f : ε → ε') (e : ε) :
    (err e : Outcome ε α).mapErr f = err (f e) := rfl

@[simp] theorem mapErr_panic {ε' : Type u} (f : ε → ε') (m : String) :
    (panic m : Outcome ε α).mapErr f = panic m := rfl

@[simp] theorem mapErr_div {ε' : Type u} (f : ε → ε') :
    (div : Outcome ε α).mapErr f = div := rfl

theorem mapErr_eq_ok {ε' : Type u} {f : ε → ε'} {x : Outcome ε α} {a : α} :
    x.mapErr f = ok a ↔ x = ok a := by
  cases x <;> simp

/-- `Result::unwrap`: an error becomes a panic whose message shows the error
as `debug` writes it. -/
def unwrapResult {ε' : Type u} (debug : ε' → String) : Outcome ε' α → Outcome ε α
  | ok a => ok a
  | err e => panic ("called `Result::unwrap()` on an `Err` value: " ++ debug e)
  | panic m => panic m
  | div => div

/-- `let Ok(a) = x else { return r };` and then `f a`: an error of `x` makes
the call return `r`. -/
def letOkElse {ε' : Type u} (x : Outcome ε' α) (r : β) (f : α → Outcome ε β) : Outcome ε β :=
  match x with
  | ok a => f a
  | err _ => ok r
  | panic m => panic m
  | div => div

@[simp] theorem letOkElse_ok {ε' : Type u} (a : α) (r : β) (f : α → Outcome ε β) :
    letOkElse (ok a : Outcome ε' α) r f = f a := rfl

@[simp] theorem letOkElse_err {ε' : Type u} (e : ε') (r : β) (f : α → Outcome ε β) :
    letOkElse (err e : Outcome ε' α) r f = ok r := rfl

/-- Turn an `Option` into a value, panicking with `msg` on `none`, as
`Option::expect` does; a map index `m[k]` is the same with the message of the
map's `Index` implementation. -/
def expect (o : Option α) (msg : String) : Outcome ε α :=
  match o with
  | some a => ok a
  | none => panic msg

@[simp] theorem expect_some (a : α) (msg : String) :
    (expect (some a) msg : Outcome ε α) = ok a := rfl

@[simp] theorem expect_none (msg : String) :
    (expect none msg : Outcome ε α) = panic msg := rfl

theorem eq_some_of_expect_eq_ok {o : Option α} {msg : String} {a : α}
    (h : (expect o msg : Outcome ε α) = ok a) : o = some a := by
  cases o with
  | none => cases h
  | some b =>
    rw [expect_some, ok.injEq] at h
    rw [h]

/-- Indexing a slice, `l[i]`: panics past its end. -/
def getIndex (l : List α) (i : ℕ) : Outcome ε α :=
  expect l[i]? ("index out of bounds: the len is " ++ toString l.length ++
    " but the index is " ++ toString i)

/-- `expect` gives the value or panics; it never returns an error. -/
theorem expect_eq_ok_or_panic (o : Option α) (msg : String) :
    (∃ a, (expect o msg : Outcome ε α) = ok a) ∨ ∃ m, (expect o msg : Outcome ε α) = panic m := by
  cases o with
  | some a => exact Or.inl ⟨a, rfl⟩
  | none => exact Or.inr ⟨msg, rfl⟩

theorem getIndex_of_lt {l : List α} {i : ℕ} (h : i < l.length) :
    (getIndex l i : Outcome ε α) = ok l[i] := by
  rw [getIndex, List.getElem?_eq_getElem h, expect_some]

theorem getIndex_of_length_le {l : List α} {i : ℕ} (h : l.length ≤ i) :
    ∃ m, (getIndex l i : Outcome ε α) = panic m :=
  ⟨_, by rw [getIndex, List.getElem?_eq_none h, expect_none]⟩

/-- The call returns: it does not panic and does not exhaust its fuel. -/
def Returns : Outcome ε α → Prop
  | ok _ | err _ => True
  | panic _ | div => False

@[simp] theorem returns_ok (a : α) : (ok a : Outcome ε α).Returns := trivial

@[simp] theorem returns_err (e : ε) : (err e : Outcome ε α).Returns := trivial

@[simp] theorem not_returns_panic (m : String) : ¬ (panic m : Outcome ε α).Returns := id

@[simp] theorem not_returns_div : ¬ (div : Outcome ε α).Returns := id

theorem Returns.bind {x : Outcome ε α} {f : α → Outcome ε β} (hx : x.Returns)
    (hf : ∀ a, x = ok a → (f a).Returns) : (x.bind f).Returns := by
  cases x with
  | ok a => exact hf a rfl
  | err e => trivial
  | panic m => exact hx.elim
  | div => exact hx.elim

@[simp] theorem returns_mapErr {ε' : Type u} (f : ε → ε') (x : Outcome ε α) :
    (x.mapErr f).Returns ↔ x.Returns := by
  cases x <;> rfl

/-! ## Traversals of lists -/

theorem mapM_ok {γ : Type v} {f : γ → Outcome ε α} {l : List γ}
    (h : ∀ x ∈ l, ∃ a, f x = ok a) : ∃ as, l.mapM f = ok as := by
  induction l with
  | nil => exact ⟨[], rfl⟩
  | cons x l ih =>
    obtain ⟨a, ha⟩ := h x List.mem_cons_self
    obtain ⟨as, has⟩ := ih (fun y hy => h y (List.mem_cons_of_mem x hy))
    exact ⟨a :: as, by simp [ha, has]⟩

/-- A map whose steps return their input beside a value returns the inputs in order. -/
theorem mapM_keys {γ β : Type v} {f : γ → Outcome ε (γ × β)} {l : List γ}
    (h : ∀ x ∈ l, ∃ b, f x = ok (x, b)) : ∃ as, l.mapM f = ok as ∧ as.map Prod.fst = l := by
  induction l with
  | nil => exact ⟨[], rfl, rfl⟩
  | cons x l ih =>
    obtain ⟨b, hb⟩ := h x List.mem_cons_self
    obtain ⟨as, has, hkeys⟩ := ih (fun y hy => h y (List.mem_cons_of_mem x hy))
    exact ⟨(x, b) :: as, by simp [hb, has], by rw [List.map_cons, hkeys]⟩

/-- A map whose steps all succeed is the pure map. -/
theorem mapM_eq_ok_map {γ : Type v} {f : γ → Outcome ε α} {g : γ → α} {l : List γ}
    (h : ∀ x ∈ l, f x = ok (g x)) : l.mapM f = ok (l.map g) := by
  induction l with
  | nil => rfl
  | cons x l ih =>
    rw [List.mapM_cons, h x List.mem_cons_self, ih fun y hy => h y (List.mem_cons_of_mem x hy)]
    rfl

/-- A map whose steps succeed up to a last element that panics panics with it. -/
theorem mapM_append_singleton_panic {γ : Type v} {f : γ → Outcome ε α} {l : List γ} {x : γ}
    {m : String} (h : ∀ y ∈ l, ∃ a, f y = ok a) (hx : f x = panic m) :
    (l ++ [x]).mapM f = panic m := by
  obtain ⟨as, has⟩ := mapM_ok h
  rw [List.mapM_append, has, List.mapM_cons, hx]
  rfl

/-- A map whose steps give a value or panic panics as soon as one step does. -/
theorem mapM_panic_of_mem {γ : Type v} {f : γ → Outcome ε α} {l : List γ}
    (hf : ∀ y ∈ l, (∃ a, f y = ok a) ∨ ∃ m, f y = panic m) {x : γ} (hx : x ∈ l)
    (hpanic : ∃ m, f x = panic m) : ∃ m, l.mapM f = panic m := by
  induction l with
  | nil => exact absurd hx List.not_mem_nil
  | cons y l ih =>
    rcases hf y List.mem_cons_self with ⟨a, ha⟩ | ⟨m, hm⟩
    · -- the head gives a value, so the step that panics is in the tail
      have hxl : x ∈ l := by
        rcases List.mem_cons.mp hx with rfl | hxl
        · obtain ⟨m, hm⟩ := hpanic
          rw [ha] at hm
          cases hm
        · exact hxl
      obtain ⟨m, hm⟩ := ih (fun z hz => hf z (List.mem_cons_of_mem y hz)) hxl
      exact ⟨m, by simp only [List.mapM_cons, bind_def, ha, hm, ok_bind, panic_bind]⟩
    · exact ⟨m, by simp only [List.mapM_cons, bind_def, hm, panic_bind]⟩

theorem mem_of_mapM_eq_ok {γ : Type v} {f : γ → Outcome ε α} {l : List γ} {as : List α}
    (h : l.mapM f = ok as) : ∀ a ∈ as, ∃ x ∈ l, f x = ok a := by
  induction l generalizing as with
  | nil =>
    simp only [List.mapM_nil, pure_def, ok.injEq] at h
    simp [← h]
  | cons x l ih =>
    simp only [List.mapM_cons, bind_def, pure_def, bind_eq_ok] at h
    obtain ⟨a, ha, bs, hbs, hsame⟩ := h
    cases hsame
    intro b hb
    rcases List.mem_cons.mp hb with rfl | hb
    · exact ⟨x, List.mem_cons_self, ha⟩
    · obtain ⟨y, hy, hfy⟩ := ih hbs b hb
      exact ⟨y, List.mem_cons_of_mem x hy, hfy⟩

theorem ok_of_mapM_eq_ok {γ : Type v} {f : γ → Outcome ε α} {l : List γ} {as : List α}
    (h : l.mapM f = ok as) : ∀ x ∈ l, ∃ a, f x = ok a := by
  induction l generalizing as with
  | nil => simp
  | cons x l ih =>
    simp only [List.mapM_cons, bind_def, pure_def, bind_eq_ok] at h
    obtain ⟨a, ha, bs, hbs, -⟩ := h
    intro y hy
    rcases List.mem_cons.mp hy with rfl | hy
    · exact ⟨a, ha⟩
    · exact ih hbs y hy

/-- The results of a successful `mapM`, seen through `g`, are the elements seen
through `g'`, when every result of an element agrees with it so. -/
theorem map_of_mapM_eq_ok {γ δ : Type v} {f : γ → Outcome ε α} {l : List γ} {as : List α}
    (h : l.mapM f = ok as) {g : α → δ} {g' : γ → δ} (hfg : ∀ x ∈ l, ∀ a, f x = ok a → g a = g' x) :
    as.map g = l.map g' := by
  induction l generalizing as with
  | nil =>
    simp only [List.mapM_nil, pure_def, ok.injEq] at h
    simp [← h]
  | cons x l ih =>
    simp only [List.mapM_cons, bind_def, pure_def, bind_eq_ok] at h
    obtain ⟨a, ha, bs, hbs, hsame⟩ := h
    cases hsame
    rw [List.map_cons, List.map_cons, hfg x List.mem_cons_self a ha,
      ih hbs fun y hy => hfg y (List.mem_cons_of_mem x hy)]

/-- Every result of an element of the list is among the results. -/
theorem mem_mapM_of_mem {γ : Type v} {f : γ → Outcome ε α} {l : List γ} {as : List α}
    (h : l.mapM f = ok as) {x : γ} (hx : x ∈ l) {a : α} (hfx : f x = ok a) : a ∈ as := by
  induction l generalizing as with
  | nil => cases hx
  | cons y l ih =>
    simp only [List.mapM_cons, bind_def, pure_def, bind_eq_ok] at h
    obtain ⟨b, hb, bs, hbs, hsame⟩ := h
    cases hsame
    rcases List.mem_cons.mp hx with rfl | hx
    · rw [hfx, ok.injEq] at hb
      rw [hb]
      exact List.mem_cons_self
    · exact List.mem_cons_of_mem b (ih hbs hx)

/-- A loop of checks returns normally exactly when every check passes. -/
theorem forM_eq_ok {γ : Type} {f : γ → Outcome ε PUnit} :
    ∀ {l : List γ}, l.forM f = ok ⟨⟩ ↔ ∀ x ∈ l, f x = ok ⟨⟩ := by
  intro l
  induction l with
  | nil => simp
  | cons x l ih =>
    have hcons : (x :: l).forM f = (f x).bind (fun _ => l.forM f) := rfl
    rw [hcons, bind_eq_ok, List.forall_mem_cons, ← ih]
    constructor
    · rintro ⟨⟨⟩, hx, hl⟩
      exact ⟨hx, hl⟩
    · rintro ⟨hx, hl⟩
      exact ⟨⟨⟩, hx, hl⟩

/-- Mapping a function over two permutations of one list gives permuted results. -/
theorem mapM_perm {γ : Type v} {f : γ → Outcome ε α} {l l' : List γ} (hp : l.Perm l') :
    ∀ {as as' : List α}, l.mapM f = ok as → l'.mapM f = ok as' → as.Perm as' := by
  induction hp with
  | nil =>
    intro as as' h h'
    simp only [List.mapM_nil, pure_def, ok.injEq] at h h'
    rw [← h, ← h']
  | cons x _ ih =>
    intro as as' h h'
    simp only [List.mapM_cons, bind_def, pure_def, bind_eq_ok, ok.injEq] at h h'
    obtain ⟨a, ha, bs, hbs, rfl⟩ := h
    obtain ⟨a', ha', bs', hbs', rfl⟩ := h'
    rw [ha, ok.injEq] at ha'
    rw [← ha']
    exact (ih hbs hbs').cons a
  | swap x y l =>
    intro as as' h h'
    simp only [List.mapM_cons, bind_def, pure_def, bind_eq_ok, ok.injEq] at h h'
    obtain ⟨b, hb, _, ⟨a, ha, cs, hcs, rfl⟩, rfl⟩ := h
    obtain ⟨a', ha', _, ⟨b', hb', cs', hcs', rfl⟩, rfl⟩ := h'
    rw [ha, ok.injEq] at ha'
    rw [hb, ok.injEq] at hb'
    rw [hcs, ok.injEq] at hcs'
    rw [← ha', ← hb', ← hcs']
    exact List.Perm.swap a b cs
  | trans h12 _ ih12 ih23 =>
    intro as as' h h'
    obtain ⟨bs, hbs⟩ := mapM_ok (f := f) fun x hx => ok_of_mapM_eq_ok h x (h12.symm.mem_iff.mp hx)
    exact (ih12 h hbs).trans (ih23 hbs h')

/-- A monadic fold whose steps succeed on an invariant is the pure fold, and
keeps the invariant. -/
theorem foldlM_eq_ok_foldl {γ : Type v} {f : β → γ → Outcome ε β} {g : β → γ → β}
    (inv : β → Prop) {l : List γ}
    (hstep : ∀ b x, inv b → x ∈ l → f b x = ok (g b x) ∧ inv (g b x)) :
    ∀ {init : β}, inv init → l.foldlM f init = ok (l.foldl g init) ∧ inv (l.foldl g init) := by
  induction l with
  | nil => intro init hinit; exact ⟨rfl, hinit⟩
  | cons x l ih =>
    intro init hinit
    obtain ⟨hf, hinv⟩ := hstep init x hinit List.mem_cons_self
    obtain ⟨hrest, hres⟩ := ih (fun b y hb hy => hstep b y hb (List.mem_cons_of_mem x hy)) hinv
    refine ⟨?_, hres⟩
    simp only [List.foldlM_cons, bind_def, hf, ok_bind, hrest, List.foldl_cons]

/-- A monadic fold that succeeds keeps every invariant that each successful
step keeps. -/
theorem foldlM_invariant {γ : Type v} {f : β → γ → Outcome ε β} (inv : β → Prop)
    (hstep : ∀ b x b', inv b → f b x = ok b' → inv b') :
    ∀ {l : List γ} {init r : β}, inv init → l.foldlM f init = ok r → inv r := by
  intro l
  induction l with
  | nil =>
    intro init r hinit h
    simp only [List.foldlM_nil, pure_def, ok.injEq] at h
    exact h ▸ hinit
  | cons x l ih =>
    intro init r hinit h
    simp only [List.foldlM_cons, bind_def, bind_eq_ok] at h
    obtain ⟨b, hb, hrest⟩ := h
    exact ih (hstep init x b hinit hb) hrest

/-- A fold whose every step keeps its accumulator or takes the element ends
with the initial value or an element of the list. -/
theorem foldlM_mem {f : α → α → Outcome ε α}
    (hf : ∀ a x b, f a x = ok b → b = a ∨ b = x) :
    ∀ {l : List α} {init r : α}, l.foldlM f init = ok r → r = init ∨ r ∈ l := by
  intro l
  induction l with
  | nil =>
    intro init r h
    simp only [List.foldlM_nil, pure_def, ok.injEq] at h
    exact Or.inl h.symm
  | cons x l ih =>
    intro init r h
    simp only [List.foldlM_cons, bind_def, bind_eq_ok] at h
    obtain ⟨b, hb, hrest⟩ := h
    rcases ih hrest with rfl | hr
    · rcases hf init x r hb with rfl | rfl
      · exact Or.inl rfl
      · exact Or.inr List.mem_cons_self
    · exact Or.inr (List.mem_cons_of_mem x hr)

/-! ## Loops -/

/-- `while cond a { a = body(a) }`, testing `cond` at most `fuel` times. -/
def loop (cond : α → Bool) (body : α → Outcome ε α) : ℕ → α → Outcome ε α
  | 0, _ => div
  | fuel + 1, a => if cond a then (body a).bind (loop cond body fuel) else ok a

variable {cond : α → Bool} {body : α → Outcome ε α}

theorem loop_stop (fuel : ℕ) {a : α} (h : cond a = false) :
    loop cond body (fuel + 1) a = ok a := by
  simp [loop, h]

theorem loop_continue (fuel : ℕ) {a : α} (h : cond a = true) :
    loop cond body (fuel + 1) a = (body a).bind (loop cond body fuel) := by
  simp [loop, h]

/-- A loop that returns has a final state where the test fails, and every
invariant kept by the body holds there. -/
theorem loop_invariant (inv : α → Prop)
    (step : ∀ a b, inv a → cond a = true → body a = ok b → inv b) :
    ∀ (fuel : ℕ) (a b : α), inv a → loop cond body fuel a = ok b →
      inv b ∧ cond b = false := by
  intro fuel
  induction fuel with
  | zero => intro a b _ h; cases h
  | succ fuel ih =>
    intro a b ha h
    cases hc : cond a with
    | false =>
      rw [loop_stop fuel hc] at h
      cases h
      exact ⟨ha, hc⟩
    | true =>
      rw [loop_continue fuel hc, bind_eq_ok] at h
      obtain ⟨a', hbody, hrest⟩ := h
      exact ih a' b (step a a' ha hc hbody) hrest

/-- Termination: if the body keeps the invariant, returns, and lowers a
measure, fuel above the measure suffices. -/
theorem loop_returns (inv : α → Prop) (μ : α → ℕ)
    (step : ∀ a, inv a → cond a = true → ∃ b, body a = ok b ∧ inv b ∧ μ b < μ a) :
    ∀ (fuel : ℕ) (a : α), inv a → μ a < fuel → ∃ b, loop cond body fuel a = ok b := by
  intro fuel
  induction fuel with
  | zero => intro a _ h; omega
  | succ fuel ih =>
    intro a ha hμ
    cases hc : cond a with
    | false => exact ⟨a, loop_stop fuel hc⟩
    | true =>
      obtain ⟨b, hbody, hb, hlt⟩ := step a ha hc
      obtain ⟨c, hc'⟩ := ih b hb (by omega)
      exact ⟨c, by rw [loop_continue fuel hc, hbody, ok_bind, hc']⟩

/-- Termination and the invariant together: the loop returns a state where
the invariant holds and the test fails. -/
theorem loop_spec (inv : α → Prop) (μ : α → ℕ)
    (step : ∀ a, inv a → cond a = true → ∃ b, body a = ok b ∧ inv b ∧ μ b < μ a)
    (fuel : ℕ) (a : α) (ha : inv a) (hμ : μ a < fuel) :
    ∃ b, loop cond body fuel a = ok b ∧ inv b ∧ cond b = false := by
  obtain ⟨b, hb⟩ := loop_returns inv μ step fuel a ha hμ
  refine ⟨b, hb, loop_invariant inv ?_ fuel a b ha hb⟩
  intro a' b' ha' hc hbody
  obtain ⟨b'', hbody', hb'', -⟩ := step a' ha' hc
  rw [hbody] at hbody'
  cases hbody'
  exact hb''

/-- The induction rule of `for h in (1..=n).rev()`: an invariant indexed by the
number of rounds done, kept by the round at `h = n - k`. -/
theorem foldl_rev_range_induction {β : Type v} (f : β → ℕ → β) (P : ℕ → β → Prop) :
    ∀ (n : ℕ) (init : β), P 0 init → (∀ k < n, ∀ s, P k s → P (k + 1) (f s (n - k))) →
      P n (((List.range n).reverse.map (· + 1)).foldl f init)
  | 0, _, h0, _ => h0
  | n + 1, init, h0, hstep => by
    have hlist : (List.range (n + 1)).reverse.map (· + 1) =
        (n + 1) :: (List.range n).reverse.map (· + 1) := by
      simp [List.range_succ]
    rw [hlist, List.foldl_cons]
    exact foldl_rev_range_induction f (fun k s => P (k + 1) s) n _
      (by simpa using hstep 0 (Nat.succ_pos n) init h0)
      (fun k hk s hs => by simpa using hstep (k + 1) (by omega) s hs)

/-! ## Unsigned machine arithmetic of a debug build -/

/-- `a + b` on a `w`-bit unsigned integer: panics on overflow. -/
def addChecked (w a b : ℕ) : Outcome ε ℕ :=
  if a + b < 2 ^ w then ok (a + b) else panic "attempt to add with overflow"

/-- `a - b` on an unsigned integer: panics when `b > a`. -/
def subChecked (a b : ℕ) : Outcome ε ℕ :=
  if b ≤ a then ok (a - b) else panic "attempt to subtract with overflow"

/-- `a * b` on a `w`-bit unsigned integer: panics on overflow. -/
def mulChecked (w a b : ℕ) : Outcome ε ℕ :=
  if a * b < 2 ^ w then ok (a * b) else panic "attempt to multiply with overflow"

/-- `saturating_add` on a `w`-bit unsigned integer. -/
def saturatingAdd (w a b : ℕ) : ℕ := min (a + b) (2 ^ w - 1)

/-- `saturating_mul` on a `w`-bit unsigned integer. -/
def saturatingMul (w a b : ℕ) : ℕ := min (a * b) (2 ^ w - 1)

/-- `checked_mul` on a `w`-bit unsigned integer. -/
def checkedMul (w a b : ℕ) : Option ℕ := if a * b < 2 ^ w then some (a * b) else none

/-- `checked_div`: `None` on a zero divisor. -/
def checkedDiv (a b : ℕ) : Option ℕ := if b = 0 then none else some (a / b)

/-- `checked_sub` on an unsigned integer: `None` when `b > a`. -/
def checkedSub (a b : ℕ) : Option ℕ := if b ≤ a then some (a - b) else none

/-- `.unwrap()` on an `Option`. -/
def unwrap (o : Option α) : Outcome ε α := expect o "called `Option::unwrap()` on a `None` value"

@[simp] theorem unwrap_some (a : α) : (unwrap (some a) : Outcome ε α) = ok a := rfl

theorem checkedMul_of_lt {w a b : ℕ} (h : a * b < 2 ^ w) : checkedMul w a b = some (a * b) :=
  if_pos h

theorem checkedDiv_of_pos {a b : ℕ} (h : 0 < b) : checkedDiv a b = some (a / b) :=
  if_neg (Nat.pos_iff_ne_zero.mp h)

theorem checkedSub_of_le {a b : ℕ} (h : b ≤ a) : checkedSub a b = some (a - b) :=
  if_pos h

theorem addChecked_of_lt {w a b : ℕ} (h : a + b < 2 ^ w) :
    (addChecked w a b : Outcome ε ℕ) = ok (a + b) := by
  simp [addChecked, h]

theorem addChecked_eq_ok {w a b r : ℕ} :
    (addChecked w a b : Outcome ε ℕ) = ok r ↔ a + b < 2 ^ w ∧ r = a + b := by
  unfold addChecked
  by_cases h : a + b < 2 ^ w
  · simp only [if_pos h, ok.injEq]
    exact ⟨fun e => ⟨h, e.symm⟩, fun e => e.2.symm⟩
  · simp [h]

theorem addChecked_of_le {w a b : ℕ} (h : 2 ^ w ≤ a + b) :
    (addChecked w a b : Outcome ε ℕ) = panic "attempt to add with overflow" := by
  simp [addChecked, Nat.not_lt.mpr h]

theorem subChecked_of_le {a b : ℕ} (h : b ≤ a) :
    (subChecked a b : Outcome ε ℕ) = ok (a - b) := by
  simp [subChecked, h]

theorem subChecked_of_lt {a b : ℕ} (h : a < b) :
    (subChecked a b : Outcome ε ℕ) = panic "attempt to subtract with overflow" := by
  simp [subChecked, Nat.not_le.mpr h]

end Outcome
