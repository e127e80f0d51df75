import NomosNode.Lib.Outcome
import Mathlib

/-!
# Runs of machines with outputs

A machine with a state `σ` that reads one input `ι` per step and answers with
an output `ο`, as a polled component does: `run` feeds it a list of inputs and
collects the outputs. Two rules carry the proofs about such runs. An invariant
that every allowed step keeps, with a good output, holds along the run. And a
conservation law, where each step's output followed by what the new state holds
is what the old state held followed by the step's input, adds up over a run:
that is how a queue is shown to lose, duplicate and reorder nothing.
-/

namespace Mealy

universe u v w

variable {σ : Type u} {ι : Type v} {ο : Type w}

/-- Feed the inputs in order: the final state and the outputs. -/
def run (step : σ → ι → σ × ο) : σ → List ι → σ × List ο
  | s, [] => (s, [])
  | s, i :: is => ((run step (step s i).1 is).1, (step s i).2 :: (run step (step s i).1 is).2)

variable {step : σ → ι → σ × ο}

@[simp] theorem run_nil (s : σ) : run step s [] = (s, []) := rfl

@[simp] theorem run_cons (s : σ) (i : ι) (is : List ι) :
    run step s (i :: is) =
      ((run step (step s i).1 is).1, (step s i).2 :: (run step (step s i).1 is).2) := rfl

/-- An invariant that every allowed step keeps, with a good output, holds at
the end of every run of allowed inputs, and every output of the run is good. -/
theorem run_invariant (inv : σ → Prop) (allowed : ι → Prop) (good : ο → Prop)
    (hstep : ∀ s i, inv s → allowed i → inv (step s i).1 ∧ good (step s i).2) :
    ∀ (is : List ι) (s : σ), inv s → (∀ i ∈ is, allowed i) →
      inv (run step s is).1 ∧ ∀ o ∈ (run step s is).2, good o := by
  intro is
  induction is with
  | nil =>
    intro s hs _
    exact ⟨hs, by simp⟩
  | cons i is ih =>
    intro s hs hallowed
    obtain ⟨hs1, hgood⟩ := hstep s i hs (hallowed i List.mem_cons_self)
    obtain ⟨hinv, houts⟩ := ih _ hs1 fun j hj => hallowed j (List.mem_cons_of_mem i hj)
    refine ⟨hinv, fun o ho => ?_⟩
    rcases List.mem_cons.mp ho with rfl | ho
    · exact hgood
    · exact houts o ho

/-- The at-most-once rule. Outputs carry some count out of what the state
holds; a step may add one to the total only while a mark is unset, and then
sets it, and no step unsets it. Then a run outputs, beyond what the state
held, at most one more, and none once the mark is set. -/
theorem run_sum_le_once (inv : σ → Prop) (allowed : ι → Prop) (marked : σ → Bool)
    (held : σ → ℕ) (count : ο → ℕ)
    (hinv : ∀ s i, inv s → allowed i → inv (step s i).1)
    (hkeep : ∀ s i, inv s → allowed i → marked s = true → marked (step s i).1 = true)
    (hstep : ∀ s i, inv s → allowed i →
      count (step s i).2 + held (step s i).1 ≤ held s ∨
        (marked s = false ∧ marked (step s i).1 = true ∧
          count (step s i).2 + held (step s i).1 ≤ held s + 1)) :
    ∀ (is : List ι) (s : σ), inv s → (∀ i ∈ is, allowed i) →
      ((run step s is).2.map count).sum + held (run step s is).1 ≤
        held s + if marked s then 0 else 1 := by
  intro is
  induction is with
  | nil => simp
  | cons i is ih =>
    intro s hs hallowed
    have hi := hallowed i List.mem_cons_self
    have hlater := ih (step s i).1 (hinv s i hs hi) fun j hj => hallowed j (List.mem_cons_of_mem i hj)
    simp only [run_cons, List.map_cons, List.sum_cons]
    rcases hstep s i hs hi with hnone | ⟨hunset, hset, hone⟩
    · -- nothing added: the mark can only have been set since
      cases hmark : marked s
      · simp only [Bool.false_eq_true, if_false] at hlater ⊢
        split at hlater <;> omega
      · simp only [hkeep s i hs hi hmark, if_true] at hlater ⊢
        omega
    · -- the one addition, after which the mark is set
      simp only [hset, hunset, if_true, Bool.false_eq_true, if_false] at hlater ⊢
      omega

section Outcome

open Outcome

variable {ε : Type*} {step : σ → ι → Outcome ε (σ × ο)}

/-- A machine whose step may end the program, with an error or a panic: the
run stops at the first step that does not return, with that outcome and the
outputs of the steps before it, which have happened. -/
def runOutcome (step : σ → ι → Outcome ε (σ × ο)) : σ → List ι → Outcome ε σ × List ο
  | s, [] => (ok s, [])
  | s, i :: is =>
    match step s i with
    | ok r => ((runOutcome step r.1 is).1, r.2 :: (runOutcome step r.1 is).2)
    | err e => (err e, [])
    | .panic m => (.panic m, [])
    | div => (div, [])

@[simp] theorem runOutcome_nil (s : σ) : runOutcome step s [] = (ok s, []) := rfl

theorem runOutcome_cons_of_ok {s s' : σ} {i : ι} {o : ο} (is : List ι)
    (h : step s i = ok (s', o)) :
    runOutcome step s (i :: is) = ((runOutcome step s' is).1, o :: (runOutcome step s' is).2) := by
  simp [runOutcome, h]

/-- A run that ends in a state took every step: the first step returned. -/
theorem runOutcome_cons_eq_ok {s s'' : σ} {i : ι} {is : List ι}
    (h : (runOutcome step s (i :: is)).1 = ok s'') :
    ∃ s' o, step s i = ok (s', o) ∧ (runOutcome step s' is).1 = ok s'' ∧
      (runOutcome step s (i :: is)).2 = o :: (runOutcome step s' is).2 := by
  rcases hstep : step s i with r | e | m | _
  · exact ⟨r.1, r.2, rfl, by simpa [runOutcome, hstep] using h, by simp [runOutcome, hstep]⟩
  all_goals simp [runOutcome, hstep] at h

/-- When every allowed step returns, a run of allowed inputs ends in a state. -/
theorem runOutcome_ok (allowed : ι → Prop)
    (hstep : ∀ s i, allowed i → ∃ r, step s i = ok r) :
    ∀ (is : List ι) (s : σ), (∀ i ∈ is, allowed i) → ∃ s', (runOutcome step s is).1 = ok s' := by
  intro is
  induction is with
  | nil => exact fun s _ => ⟨s, rfl⟩
  | cons i is ih =>
    intro s hallowed
    obtain ⟨r, hr⟩ := hstep s i (hallowed i List.mem_cons_self)
    rw [runOutcome_cons_of_ok is hr]
    exact ih r.1 fun j hj => hallowed j (List.mem_cons_of_mem i hj)

/-- The progress rule: when every step from a state of an invariant returns a
state of the invariant or panics with one of the allowed messages, a run from
such a state ends in a state of the invariant or with one of those panics. -/
theorem runOutcome_progress (inv : σ → Prop) (allowed : String → Prop)
    (hstep : ∀ s i, inv s → (∃ s' o, step s i = ok (s', o) ∧ inv s') ∨
      ∃ m, allowed m ∧ step s i = .panic m) :
    ∀ (is : List ι) (s : σ), inv s →
      (∃ s', (runOutcome step s is).1 = ok s' ∧ inv s') ∨
        ∃ m, allowed m ∧ (runOutcome step s is).1 = .panic m := by
  intro is
  induction is with
  | nil => exact fun s hs => .inl ⟨s, rfl, hs⟩
  | cons i is ih =>
    intro s hs
    rcases hstep s i hs with ⟨s', o, hok, hinv⟩ | ⟨m, hm, hpanic⟩
    · rw [runOutcome_cons_of_ok is hok]
      exact ih s' hinv
    · exact .inr ⟨m, hm, by simp [runOutcome, hpanic]⟩

/-- A run that ends in a state answered every input. -/
theorem runOutcome_length (step : σ → ι → Outcome ε (σ × ο)) :
    ∀ (is : List ι) (s s'' : σ), (runOutcome step s is).1 = ok s'' →
      (runOutcome step s is).2.length = is.length := by
  intro is
  induction is with
  | nil => simp
  | cons i is ih =>
    intro s s'' h
    obtain ⟨s', o, -, hrest, houts⟩ := runOutcome_cons_eq_ok h
    rw [houts, List.length_cons, ih s' s'' hrest, List.length_cons]

/-- The rate rule: when each step yields at most one item, and none unless
its input is a tick, a run that ends in a state yields at most as many items
as it had ticks. -/
theorem runOutcome_length_flatMap_le {α : Type*} (count : ο → List α) (tick : ι → Bool)
    (hstep : ∀ s i s' o, step s i = ok (s', o) → (count o).length ≤ if tick i then 1 else 0) :
    ∀ (is : List ι) (s s'' : σ), (runOutcome step s is).1 = ok s'' →
      ((runOutcome step s is).2.flatMap count).length ≤ is.countP tick := by
  intro is
  induction is with
  | nil => simp
  | cons i is ih =>
    intro s s'' h
    obtain ⟨s', o, hone, hrest, houts⟩ := runOutcome_cons_eq_ok h
    have hfirst := hstep s i s' o hone
    have hlater := ih s' s'' hrest
    rw [houts, List.flatMap_cons, List.length_append, List.countP_cons]
    cases htick : tick i <;>
      simp only [htick, if_true, Bool.false_eq_true, if_false] at hfirst ⊢ <;> omega

/-- The invariant rule for runs that may stop: an invariant that every allowed
step keeps, with a good output, holds in the final state of a run that ends in
one, and every output of the run, stopped or not, is good. -/
theorem runOutcome_invariant (inv : σ → Prop) (allowed : ι → Prop) (good : ο → Prop)
    (hstep : ∀ s i s' o, inv s → allowed i → step s i = ok (s', o) → inv s' ∧ good o) :
    ∀ (is : List ι) (s : σ), inv s → (∀ i ∈ is, allowed i) →
      (∀ s', (runOutcome step s is).1 = ok s' → inv s') ∧
        ∀ o ∈ (runOutcome step s is).2, good o := by
  intro is
  induction is with
  | nil =>
    intro s hs _
    exact ⟨fun s' h => by simpa [← Outcome.ok.inj h] using hs, by simp⟩
  | cons i is ih =>
    intro s hs hallowed
    rcases hr : step s i with r | e | m | _
    case ok =>
      obtain ⟨hinv, hgood⟩ := hstep s i r.1 r.2 hs (hallowed i List.mem_cons_self) hr
      obtain ⟨hend, houts⟩ := ih r.1 hinv fun j hj => hallowed j (List.mem_cons_of_mem i hj)
      rw [runOutcome_cons_of_ok is hr]
      refine ⟨hend, fun o ho => ?_⟩
      rcases List.mem_cons.mp ho with rfl | ho
      · exact hgood
      · exact houts o ho
    all_goals simp [runOutcome, hr]

/-- The invariant rule with a ghost that each input updates: an invariant
between the ghost and the state, kept by every step, with an output good for
the ghost after its input, holds at the end of a run that ends in a state for
the ghost after all the inputs; and the output to the input of index `k` is
good for the ghost after the first `k + 1` inputs. -/
theorem runOutcome_invariant_ghost {γ : Type*} (ghost : γ → ι → γ) (inv : γ → σ → Prop)
    (good : γ → ο → Prop)
    (hstep : ∀ g s i s' o, inv g s → step s i = ok (s', o) → inv (ghost g i) s' ∧ good (ghost g i) o) :
    ∀ (is : List ι) (g : γ) (s : σ), inv g s →
      (∀ s', (runOutcome step s is).1 = ok s' → inv (is.foldl ghost g) s') ∧
        ∀ k o, (runOutcome step s is).2[k]? = some o → good ((is.take (k + 1)).foldl ghost g) o := by
  intro is
  induction is with
  | nil =>
    intro g s hs
    refine ⟨fun s' h => ?_, fun k o h => ?_⟩
    · simpa [← Outcome.ok.inj h] using hs
    · simp at h
  | cons i is ih =>
    intro g s hs
    rcases hr : step s i with r | e | m | _
    case ok =>
      obtain ⟨hinv, hgood⟩ := hstep g s i r.1 r.2 hs hr
      obtain ⟨hend, houts⟩ := ih (ghost g i) r.1 hinv
      rw [runOutcome_cons_of_ok is hr]
      refine ⟨hend, fun k o ho => ?_⟩
      cases k with
      | zero =>
        obtain rfl : r.2 = o := by simpa using ho
        simpa using hgood
      | succ k =>
        have hlater := houts k o (by simpa using ho)
        simpa [List.take_succ_cons] using hlater
    all_goals simp [runOutcome, hr]

/-- The image rule: a machine whose step, from the image of a state, is the
image of another machine's step runs as the image of that machine's run, with
the same outputs. -/
theorem runOutcome_map {τ : Type u} {astep : τ → ι → Outcome ε (τ × ο)} (γ : τ → σ)
    (hstep : ∀ t i, step (γ t) i = (astep t i).bind fun r => ok (γ r.1, r.2)) :
    ∀ (is : List ι) (t : τ), runOutcome step (γ t) is =
      ((runOutcome astep t is).1.bind (ok ∘ γ), (runOutcome astep t is).2) := by
  intro is
  induction is with
  | nil => simp
  | cons i is ih =>
    intro t
    rcases hr : astep t i with r | e | m | _
    case ok =>
      have hc : step (γ t) i = ok (γ r.1, r.2) := by rw [hstep, hr, ok_bind]
      rw [runOutcome_cons_of_ok is hc, runOutcome_cons_of_ok is hr, ih]
    all_goals simp [runOutcome, hstep, hr]

/-- The lossy queue rule: when, from a state of an invariant that every step
keeps, what each step hands out, followed by what the new state holds, is a
sublist of what the old state held followed by the step's arrivals, a run
hands out, in order, a sublist of what the state held followed by all the
arrivals: items may be lost, never duplicated or reordered. -/
theorem runOutcome_sublist_of_invariant {α : Type*} (inv : σ → Prop) (held : σ → List α)
    (arrivals : ι → List α) (out : ο → List α)
    (hinv : ∀ s i s' o, inv s → step s i = ok (s', o) → inv s')
    (hstep : ∀ s i s' o, inv s → step s i = ok (s', o) →
      (out o ++ held s').Sublist (held s ++ arrivals i)) :
    ∀ (is : List ι) (s : σ), inv s →
      ((runOutcome step s is).2.flatMap out).Sublist (held s ++ is.flatMap arrivals) ∧
        ∀ s'', (runOutcome step s is).1 = ok s'' →
          ((runOutcome step s is).2.flatMap out ++ held s'').Sublist (held s ++ is.flatMap arrivals) := by
  intro is
  induction is with
  | nil =>
    intro s _
    refine ⟨by simp, fun s'' h => ?_⟩
    cases h
    simp
  | cons i is ih =>
    intro s hs
    rcases hr : step s i with r | e | m | _
    case ok =>
      obtain ⟨hout, hfinal⟩ := ih r.1 (hinv s i r.1 r.2 hs hr)
      have hfirst := hstep s i r.1 r.2 hs hr
      have hgrow : ∀ {later : List α}, later.Sublist (held r.1 ++ is.flatMap arrivals) →
          (out r.2 ++ later).Sublist (held s ++ (i :: is).flatMap arrivals) := by
        intro later hlater
        rw [List.flatMap_cons, ← List.append_assoc]
        have hmid : (out r.2 ++ later).Sublist ((out r.2 ++ held r.1) ++ is.flatMap arrivals) := by
          rw [List.append_assoc]
          exact hlater.append_left _
        exact hmid.trans (hfirst.append_right _)
      rw [runOutcome_cons_of_ok is hr, List.flatMap_cons]
      refine ⟨hgrow hout, fun s'' h => ?_⟩
      rw [List.append_assoc]
      exact hgrow (hfinal s'' h)
    all_goals simp [runOutcome, hr]

/-- The lossy queue rule for steps that need no invariant. -/
theorem runOutcome_sublist {α : Type*} (held : σ → List α) (arrivals : ι → List α)
    (out : ο → List α)
    (hstep : ∀ s i s' o, step s i = ok (s', o) →
      (out o ++ held s').Sublist (held s ++ arrivals i)) (is : List ι) (s : σ) :
    ((runOutcome step s is).2.flatMap out).Sublist (held s ++ is.flatMap arrivals) ∧
      ∀ s'', (runOutcome step s is).1 = ok s'' →
        ((runOutcome step s is).2.flatMap out ++ held s'').Sublist (held s ++ is.flatMap arrivals) :=
  runOutcome_sublist_of_invariant (fun _ => True) held arrivals out (fun _ _ _ _ _ _ => trivial)
    (fun s i s' o _ h => hstep s i s' o h) is s trivial

/-- The conservation law: when, from a state of an invariant that every step
keeps, what each step hands out followed by what the new state holds is what
the old state held followed by the step's arrivals, read off its input and
output, a run that ends in a state hands out, followed by what that state
holds, exactly what the initial state held followed by all the arrivals:
nothing is lost, duplicated or reordered. -/
theorem runOutcome_conserves {α : Type*} (inv : σ → Prop) (held : σ → List α)
    (arrivals : ι → ο → List α) (out : ο → List α)
    (hinv : ∀ s i s' o, inv s → step s i = ok (s', o) → inv s')
    (hstep : ∀ s i s' o, inv s → step s i = ok (s', o) → out o ++ held s' = held s ++ arrivals i o) :
    ∀ (is : List ι) (s s'' : σ), inv s → (runOutcome step s is).1 = ok s'' →
      (runOutcome step s is).2.flatMap out ++ held s'' =
        held s ++ (is.zip (runOutcome step s is).2).flatMap fun p => arrivals p.1 p.2 := by
  intro is
  induction is with
  | nil =>
    intro s s'' _ h
    cases Outcome.ok.inj h
    simp
  | cons i is ih =>
    intro s s'' hs h
    obtain ⟨s', o, hone, hrest, houts⟩ := runOutcome_cons_eq_ok h
    rw [houts]
    calc (o :: (runOutcome step s' is).2).flatMap out ++ held s''
        = out o ++ ((runOutcome step s' is).2.flatMap out ++ held s'') := by simp
      _ = (out o ++ held s') ++
            (is.zip (runOutcome step s' is).2).flatMap (fun p => arrivals p.1 p.2) := by
          rw [ih s' s'' (hinv s i s' o hs hone) hrest, List.append_assoc]
      _ = held s ++ ((i :: is).zip (o :: (runOutcome step s' is).2)).flatMap
            (fun p => arrivals p.1 p.2) := by
          rw [hstep s i s' o hs hone]
          simp

/-- The conservation law when what arrives is read off the outputs alone. -/
theorem runOutcome_conserves_outputs {α : Type*} (inv : σ → Prop) (held : σ → List α)
    (arrive : ο → List α) (out : ο → List α)
    (hinv : ∀ s i s' o, inv s → step s i = ok (s', o) → inv s')
    (hstep : ∀ s i s' o, inv s → step s i = ok (s', o) → out o ++ held s' = held s ++ arrive o)
    (is : List ι) (s s'' : σ) (hs : inv s) (h : (runOutcome step s is).1 = ok s'') :
    (runOutcome step s is).2.flatMap out ++ held s'' = held s ++ (runOutcome step s is).2.flatMap arrive := by
  have hlen := runOutcome_length step is s s'' h
  rw [runOutcome_conserves inv held (fun _ o => arrive o) out hinv hstep is s s'' hs h,
    ← List.flatMap_map Prod.snd arrive, List.map_snd_zip hlen.le]

/-! ## Queues served at ticks -/

variable {α : Type*}

/-- A step that serves what the state holds as one queue: the step's arrivals,
read off its input and output, join the back, and a step at a tick of the
server hands out the front message, if there is one. -/
def ServesQueue (step : σ → ι → Outcome ε (σ × ο)) (held : σ → List α)
    (arrivals : ι → ο → List α) (served : ο → List α) (tick : ι → Bool) : Prop :=
  ∀ s i s' o, step s i = ok (s', o) →
    served o = (if tick i then (held s ++ arrivals i o).take 1 else []) ∧
      held s' = if tick i then (held s ++ arrivals i o).drop 1 else held s ++ arrivals i o

section ServesQueue

variable {held : σ → List α} {arrivals : ι → ο → List α} {served : ο → List α} {tick : ι → Bool}

/-- One step of a queue conserves: what it serves, followed by what the state
then holds, is what the state held followed by the arrivals. -/
theorem ServesQueue.step_conserves (hq : ServesQueue step held arrivals served tick)
    {s s' : σ} {i : ι} {o : ο} (h : step s i = ok (s', o)) :
    served o ++ held s' = held s ++ arrivals i o := by
  obtain ⟨hserved, hheld⟩ := hq s i s' o h
  rw [hserved, hheld]
  cases tick i
  · simp
  · exact List.take_append_drop 1 _

/-- The conservation law of a queue over a run that ends in a state: the
messages served, followed by what the final state holds, are what the initial
state held followed by all the arrivals, in order: nothing is lost, duplicated
or reordered. -/
theorem ServesQueue.runOutcome_conserves (hq : ServesQueue step held arrivals served tick) :
    ∀ (is : List ι) (s s'' : σ), (runOutcome step s is).1 = ok s'' →
      (runOutcome step s is).2.flatMap served ++ held s'' =
        held s ++ (is.zip (runOutcome step s is).2).flatMap fun p => arrivals p.1 p.2 :=
  fun is s s'' h =>
    Mealy.runOutcome_conserves (fun _ => True) held arrivals served (fun _ _ _ _ _ _ => trivial)
      (fun _ _ _ _ _ hone => hq.step_conserves hone) is s s'' trivial h

/-- The conservation law when what arrives is read off the inputs alone. -/
theorem ServesQueue.runOutcome_conserves_inputs {arrive : ι → List α}
    (hq : ServesQueue step held (fun i _ => arrive i) served tick) (is : List ι) (s s'' : σ)
    (h : (runOutcome step s is).1 = ok s'') :
    (runOutcome step s is).2.flatMap served ++ held s'' = held s ++ is.flatMap arrive := by
  have hlen := runOutcome_length step is s s'' h
  rw [hq.runOutcome_conserves is s s'' h, ← List.flatMap_map Prod.fst arrive,
    List.map_fst_zip hlen.ge]

/-- The conservation law of a queue when what arrives is read off the outputs
alone. -/
theorem ServesQueue.runOutcome_conserves_outputs {arrive : ο → List α}
    (hq : ServesQueue step held (fun _ o => arrive o) served tick) (is : List ι) (s s'' : σ)
    (h : (runOutcome step s is).1 = ok s'') :
    (runOutcome step s is).2.flatMap served ++ held s'' =
      held s ++ (runOutcome step s is).2.flatMap arrive :=
  Mealy.runOutcome_conserves_outputs (fun _ => True) held arrive served (fun _ _ _ _ _ _ => trivial)
    (fun _ _ _ _ _ hone => hq.step_conserves hone) is s s'' trivial h

/-- The rate of a queue: a run serves at most one message per tick. -/
theorem ServesQueue.runOutcome_length_le (hq : ServesQueue step held arrivals served tick)
    (is : List ι) (s s'' : σ) (h : (runOutcome step s is).1 = ok s'') :
    ((runOutcome step s is).2.flatMap served).length ≤ is.countP tick := by
  refine runOutcome_length_flatMap_le served tick (fun s i s' o hstep => ?_) is s s'' h
  rw [(hq s i s' o hstep).1]
  split
  · exact List.length_take_le _ _
  · simp

/-- The latency of a queue: over a run that ends in a state, the first `k`
messages the initial state held are served before anything else, where `k`
counts the ticks of the run, whatever arrives meanwhile. -/
theorem ServesQueue.runOutcome_take_prefix (hq : ServesQueue step held arrivals served tick) :
    ∀ (is : List ι) (s s'' : σ), (runOutcome step s is).1 = ok s'' →
      (held s).take (is.countP tick) <+: (runOutcome step s is).2.flatMap served := by
  intro is
  induction is with
  | nil => simp
  | cons i is ih =>
    intro s s'' h
    obtain ⟨s', o, hstep, hrest, houts⟩ := runOutcome_cons_eq_ok h
    obtain ⟨hserved, hheld⟩ := hq s i s' o hstep
    have hlater := ih s' s'' hrest
    rw [houts, List.flatMap_cons]
    -- Without a tick the step serves nothing and only adds at the back; at a
    -- tick the front message is served first and the rest moves up by one.
    cases htick : tick i
    · simp only [htick, Bool.false_eq_true, if_false] at hserved hheld
      rw [hserved, List.nil_append, List.countP_cons_of_neg (by simp [htick])]
      rw [hheld] at hlater
      exact (List.IsPrefix.take (List.prefix_append _ _) _).trans hlater
    · simp only [htick, if_true] at hserved hheld
      rw [List.countP_cons_of_pos (by simp [htick])]
      rcases hs : held s with _ | ⟨m, rest⟩
      · simp
      · rw [hs] at hserved hheld
        rw [hheld] at hlater
        simp only [hserved, List.take_succ_cons, List.cons_append, List.take_zero,
          List.cons_prefix_cons, true_and, List.drop_succ_cons, List.drop_zero] at hlater ⊢
        exact (List.IsPrefix.take (List.prefix_append _ _) _).trans hlater

end ServesQueue

end Outcome

end Mealy
