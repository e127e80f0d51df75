import NomosNode.Cl.Merkle
import Mathlib.Data.UInt
import Mathlib.Data.List.Perm.Basic
import Mathlib.Algebra.BigOperators.Group.List.Basic
import Mathlib.Tactic.Abel

/-!
# Notes, partial transactions and their balance

`nomos-core/cl`: the balance of a partial transaction keeps, per unit, the sums
of its outputs (`pos`) and inputs (`neg`), dropping the units where they agree,
and a bundle balances when nothing is left of the combined net values. The
`bundle_balance` guest is built in release mode, where the `u64` additions wrap,
so the model adds `UInt64`s: a bundle balances exactly when, for every unit,
inputs and outputs agree modulo `2 ^ 64`, and outputs worth `2 ^ 64` more than
the inputs balance.
-/

namespace Cl

variable (sha256 : Bytes → Bytes32)

structure NullifierSecret where
  bytes : Vector UInt8 16
  deriving DecidableEq

structure NullifierCommitment where
  bytes : Bytes32
  deriving DecidableEq

structure Covenant where
  bytes : Bytes32
  deriving DecidableEq

structure Nonce where
  bytes : Bytes32
  deriving DecidableEq

/-- `NoteWitness`; its `unit` is a `Unit`, 32 bytes. -/
structure NoteWitness where
  value : UInt64
  unit : Bytes32
  covenant : Covenant
  state : Bytes32
  nonce : Nonce
  deriving DecidableEq

def NullifierSecret.commit (sk : NullifierSecret) : NullifierCommitment :=
  ⟨sha256 ("NOMOS_CL_NULL_COMMIT".toUTF8.toList ++ sk.bytes.toList)⟩

def Nullifier.new (sk : NullifierSecret) (noteCm : NoteCommitment) : Nullifier :=
  ⟨sha256 ("NOMOS_CL_NULLIFIER".toUTF8.toList ++ sk.bytes.toList ++ noteCm.bytes.toList)⟩

def NoteWitness.commit (note : NoteWitness) (nfPk : NullifierCommitment) : NoteCommitment :=
  ⟨sha256 ("NOMOS_CL_NOTE_COMMIT".toUTF8.toList ++ leBytes 8 note.value.toNat ++
    note.unit.toList ++ note.state.toList ++ note.covenant.bytes.toList ++
    note.nonce.bytes.toList ++ nfPk.bytes.toList)⟩

structure InputWitness where
  note : NoteWitness
  nfSk : NullifierSecret

structure Input where
  nullifier : Nullifier
  covenant : Covenant

def InputWitness.noteCommitment (input : InputWitness) : NoteCommitment :=
  input.note.commit sha256 (input.nfSk.commit sha256)

def InputWitness.nullifier (input : InputWitness) : Nullifier :=
  Nullifier.new sha256 input.nfSk (input.noteCommitment sha256)

def InputWitness.commit (input : InputWitness) : Input :=
  ⟨input.nullifier sha256, input.note.covenant⟩

/-- `Input::to_bytes`: the 64 bytes of the nullifier and the covenant. -/
def Input.toBytes (input : Input) : Bytes :=
  input.nullifier.bytes.toList ++ input.covenant.bytes.toList

structure OutputWitness where
  note : NoteWitness
  nfPk : NullifierCommitment

structure Output where
  noteComm : NoteCommitment

def OutputWitness.commitNote (output : OutputWitness) : NoteCommitment :=
  output.note.commit sha256 output.nfPk

def OutputWitness.commit (output : OutputWitness) : Output := ⟨output.commitNote sha256⟩

def Output.toBytes (output : Output) : Bytes := output.noteComm.bytes.toList

structure PartialTxWitness where
  inputs : List InputWitness
  outputs : List OutputWitness
  balanceBlinding : Vector UInt8 16

/-! ## Balances -/

structure UnitBalance where
  unit : Bytes32
  pos : UInt64
  neg : UInt64
  deriving DecidableEq

def UnitBalance.isZero (b : UnitBalance) : Bool := decide (b.pos = b.neg)

structure BalanceWitness where
  balances : List UnitBalance
  blinding : Vector UInt8 16

structure Balance where
  bytes : Bytes32

namespace BalanceWitness

def zero (blinding : Vector UInt8 16) : BalanceWitness := ⟨[], blinding⟩

/-- The loop of `insert_positive` and `insert_negative`: `bump` the first entry
of the unit and return, or push `fresh` when there is none. -/
def insertInto (unit : Bytes32) (bump : UnitBalance → UnitBalance) (fresh : UnitBalance) :
    List UnitBalance → List UnitBalance
  | [] => [fresh]
  | b :: bs => if b.unit = unit then bump b :: bs else b :: insertInto unit bump fresh bs

def insertPositive (self : BalanceWitness) (unit : Bytes32) (value : UInt64) : BalanceWitness :=
  { self with
    balances := insertInto unit (fun b => { b with pos := b.pos + value }) ⟨unit, value, 0⟩
      self.balances }

def insertNegative (self : BalanceWitness) (unit : Bytes32) (value : UInt64) : BalanceWitness :=
  { self with
    balances := insertInto unit (fun b => { b with neg := b.neg + value }) ⟨unit, 0, value⟩
      self.balances }

/-- `Vec::swap_remove(i)`, for `i` below the length: the last element takes the
place of the removed one. -/
def swapRemove {α : Type} (l : List α) (i : ℕ) : List α :=
  match l.getLast? with
  | some last => (l.set i last).dropLast
  | none => l

/-- The `while i < self.balances.len()` loop of `clear_zeros`; each round lowers
`len - i` by one, so the length is enough fuel. -/
def clearZerosLoop : ℕ → ℕ → List UnitBalance → List UnitBalance
  | 0, _, balances => balances
  | fuel + 1, i, balances =>
    match balances[i]? with
    | none => balances
    | some b =>
      if b.isZero then clearZerosLoop fuel i (swapRemove balances i)
      else clearZerosLoop fuel (i + 1) balances

def clearZeros (self : BalanceWitness) : BalanceWitness :=
  { self with balances := clearZerosLoop self.balances.length 0 self.balances }

def fromPtx (ptx : PartialTxWitness) (blinding : Vector UInt8 16) : BalanceWitness :=
  let balance := ptx.inputs.foldl
    (fun balance input => balance.insertNegative input.note.unit input.note.value) (zero blinding)
  let balance := ptx.outputs.foldl
    (fun balance output => balance.insertPositive output.note.unit output.note.value) balance
  balance.clearZeros

/-- One entry of one balance in `combine`: its net value, on the side where it
is positive. -/
def combineStep (combined : BalanceWitness) (unitBal : UnitBalance) : BalanceWitness :=
  if unitBal.pos > unitBal.neg then
    combined.insertPositive unitBal.unit (unitBal.pos - unitBal.neg)
  else combined.insertNegative unitBal.unit (unitBal.neg - unitBal.pos)

def combine (balances : List BalanceWitness) (blinding : Vector UInt8 16) : BalanceWitness :=
  let combined := balances.foldl
    (fun combined balance => balance.balances.foldl combineStep combined) (zero blinding)
  combined.clearZeros

def isZero (self : BalanceWitness) : Bool := self.balances.isEmpty

def commit (self : BalanceWitness) : Balance :=
  ⟨sha256 ("NOMOS_CL_BAL_COMMIT".toUTF8.toList ++
    self.balances.flatMap (fun unitBalance => unitBalance.unit.toList ++
      leBytes 8 unitBalance.pos.toNat ++ leBytes 8 unitBalance.neg.toNat) ++
    self.blinding.toList)⟩

end BalanceWitness

def PartialTxWitness.balance (ptx : PartialTxWitness) : BalanceWitness :=
  BalanceWitness.fromPtx ptx ptx.balanceBlinding

structure BundleWitness where
  partials : List PartialTxWitness

def BundleWitness.balance (bundle : BundleWitness) : BalanceWitness :=
  BalanceWitness.combine (bundle.partials.map PartialTxWitness.balance) (Vector.replicate 16 0)

/-! ## Net values -/

namespace BalanceWitness

/-- The net value of a unit, `pos - neg` summed over its entries, modulo `2 ^ 64`. -/
def net (balances : List UnitBalance) (unit : Bytes32) : UInt64 :=
  ((balances.filter (·.unit = unit)).map fun b => b.pos - b.neg).sum

@[simp] theorem net_nil (unit : Bytes32) : net [] unit = 0 := rfl

theorem net_cons (b : UnitBalance) (bs : List UnitBalance) (unit : Bytes32) :
    net (b :: bs) unit = (if b.unit = unit then b.pos - b.neg else 0) + net bs unit := by
  unfold net
  by_cases h : b.unit = unit <;> simp [h]

theorem net_perm {l l' : List UnitBalance} (hp : l.Perm l') (unit : Bytes32) :
    net l unit = net l' unit :=
  ((hp.filter _).map _).sum_eq

/-- Inserting moves the net value of the inserted unit by `d`, and no other, as
long as the bumped entry moves by `d` and a fresh entry is worth `d`. -/
theorem net_insertInto {unit : Bytes32} {bump : UnitBalance → UnitBalance} {fresh : UnitBalance}
    {d : UInt64} (hbump : ∀ b, (bump b).unit = b.unit ∧ (bump b).pos - (bump b).neg = b.pos - b.neg + d)
    (hfresh : fresh.unit = unit ∧ fresh.pos - fresh.neg = d) (w : Bytes32) :
    ∀ bs, net (insertInto unit bump fresh bs) w = net bs w + if w = unit then d else 0
  | [] => by
    rw [insertInto, net_cons, net_nil, hfresh.1, hfresh.2]
    by_cases h : w = unit
    · simp [h]
    · simp [h, Ne.symm h]
  | b :: bs => by
    rw [insertInto]
    split
    · rename_i hb
      rw [net_cons, net_cons, (hbump b).1, (hbump b).2]
      by_cases h : w = unit
      · subst h
        simp only [hb, if_true]
        abel
      · simp [hb, h, Ne.symm h]
    · rename_i hb
      rw [net_cons, net_cons, net_insertInto hbump hfresh w bs]
      abel

/-- An entry after inserting has an old unit or the inserted one. -/
theorem mem_insertInto_unit {unit : Bytes32} {bump : UnitBalance → UnitBalance}
    {fresh : UnitBalance} (hbump : ∀ b, (bump b).unit = b.unit) (hfresh : fresh.unit = unit) :
    ∀ bs : List UnitBalance, ∀ x ∈ insertInto unit bump fresh bs,
      x.unit ∈ bs.map (·.unit) ∨ x.unit = unit
  | [], x, hx => by
    rw [insertInto, List.mem_singleton] at hx
    exact .inr (hx ▸ hfresh)
  | b :: bs, x, hx => by
    rw [insertInto] at hx
    split at hx
    · rcases List.mem_cons.mp hx with rfl | hx
      · exact .inl (by rw [hbump]; exact List.mem_map_of_mem List.mem_cons_self)
      · exact .inl (List.mem_map_of_mem (List.mem_cons_of_mem b hx))
    · rcases List.mem_cons.mp hx with rfl | hx
      · exact .inl (List.mem_map_of_mem List.mem_cons_self)
      · rcases mem_insertInto_unit hbump hfresh bs x hx with hin | heq
        · exact .inl (List.mem_cons_of_mem _ hin)
        · exact .inr heq

/-- Inserting keeps one entry per unit. -/
theorem nodup_insertInto {unit : Bytes32} {bump : UnitBalance → UnitBalance}
    {fresh : UnitBalance} (hbump : ∀ b, (bump b).unit = b.unit) (hfresh : fresh.unit = unit) :
    ∀ bs : List UnitBalance, (bs.map (·.unit)).Nodup →
      ((insertInto unit bump fresh bs).map (·.unit)).Nodup
  | [], _ => by simp [insertInto]
  | b :: bs, h => by
    rw [List.map_cons, List.nodup_cons] at h
    rw [insertInto]
    split
    · rename_i hb
      rw [List.map_cons, List.nodup_cons, hbump]
      exact h
    · rename_i hb
      have hunits : ∀ x ∈ insertInto unit bump fresh bs, x.unit ∈ bs.map (·.unit) ∨ x.unit = unit :=
        mem_insertInto_unit hbump hfresh bs
      rw [List.map_cons, List.nodup_cons]
      refine ⟨fun hmem => ?_, nodup_insertInto hbump hfresh bs h.2⟩
      obtain ⟨x, hx, hxu⟩ := List.mem_map.mp hmem
      rcases hunits x hx with hin | heq
      · exact h.1 (hxu ▸ hin)
      · exact hb (hxu ▸ heq)

/-- In a list with one entry per unit, the net value of an entry's unit is the
entry's own. -/
theorem net_of_mem {b : UnitBalance} :
    ∀ {bs : List UnitBalance}, (bs.map (·.unit)).Nodup → b ∈ bs → net bs b.unit = b.pos - b.neg
  | [], _, hb => absurd hb List.not_mem_nil
  | c :: bs, hnodup, hb => by
    rw [List.map_cons, List.nodup_cons] at hnodup
    rw [net_cons]
    rcases List.mem_cons.mp hb with rfl | hb
    · -- no other entry has the unit
      have hrest : net bs b.unit = 0 := by
        unfold net
        rw [List.filter_eq_nil_iff.mpr fun x hx hxu =>
          hnodup.1 (List.mem_map.mpr ⟨x, hx, of_decide_eq_true hxu⟩)]
        rfl
      rw [if_pos rfl, hrest, add_zero]
    · have hne : c.unit ≠ b.unit := fun h => hnodup.1 (h ▸ List.mem_map_of_mem hb)
      rw [if_neg hne, zero_add, net_of_mem hnodup.2 hb]

theorem net_insertPositive (self : BalanceWitness) (unit : Bytes32) (value : UInt64)
    (w : Bytes32) :
    net (self.insertPositive unit value).balances w =
      net self.balances w + if w = unit then value else 0 := by
  dsimp only [insertPositive]
  exact @net_insertInto unit (fun b => { b with pos := b.pos + value }) ⟨unit, value, 0⟩ value
    (fun b => ⟨rfl, show b.pos + value - b.neg = b.pos - b.neg + value by abel⟩)
    ⟨rfl, sub_zero value⟩ w self.balances

theorem net_insertNegative (self : BalanceWitness) (unit : Bytes32) (value : UInt64)
    (w : Bytes32) :
    net (self.insertNegative unit value).balances w =
      net self.balances w + if w = unit then -value else 0 := by
  dsimp only [insertNegative]
  exact @net_insertInto unit (fun b => { b with neg := b.neg + value }) ⟨unit, 0, value⟩ (-value)
    (fun b => ⟨rfl, show b.pos - (b.neg + value) = b.pos - b.neg + -value by abel⟩)
    ⟨rfl, zero_sub value⟩ w self.balances

/-- A step of `combine` adds the entry's net value, on either side. -/
theorem net_combineStep (combined : BalanceWitness) (unitBal : UnitBalance) (w : Bytes32) :
    net (combineStep combined unitBal).balances w =
      net combined.balances w + if unitBal.unit = w then unitBal.pos - unitBal.neg else 0 := by
  unfold combineStep
  split
  · rw [net_insertPositive]
    by_cases h : unitBal.unit = w
    · simp [h]
    · simp [h, Ne.symm h]
  · rw [net_insertNegative]
    by_cases h : unitBal.unit = w
    · simp [h]
    · simp [h, Ne.symm h]

theorem nodup_combineStep {combined : BalanceWitness} (h : (combined.balances.map (·.unit)).Nodup)
    (unitBal : UnitBalance) : ((combineStep combined unitBal).balances.map (·.unit)).Nodup := by
  unfold combineStep
  split
  · exact @nodup_insertInto unitBal.unit (fun b => { b with pos := b.pos + (unitBal.pos - unitBal.neg) })
      ⟨unitBal.unit, unitBal.pos - unitBal.neg, 0⟩ (fun _ => rfl) rfl _ h
  · exact @nodup_insertInto unitBal.unit (fun b => { b with neg := b.neg + (unitBal.neg - unitBal.pos) })
      ⟨unitBal.unit, 0, unitBal.neg - unitBal.pos⟩ (fun _ => rfl) rfl _ h

/-- `swap_remove` permutes the list without the removed entry. -/
theorem swapRemove_perm {α : Type} {l : List α} {i : ℕ} (hi : i < l.length) :
    (swapRemove l i).Perm (l.eraseIdx i) := by
  obtain ⟨init, last, rfl⟩ :=
    (List.eq_nil_or_concat' l).resolve_left (List.ne_nil_of_length_pos (by omega))
  rw [swapRemove, List.getLast?_concat]
  dsimp only
  rw [List.length_append, List.length_singleton] at hi
  by_cases hil : i = init.length
  · -- the last entry: it is dropped
    subst hil
    rw [List.set_append_right _ _ (le_refl _), Nat.sub_self, List.set_cons_zero,
      List.dropLast_concat, List.eraseIdx_append_of_length_le (le_refl _), Nat.sub_self,
      List.eraseIdx_cons_zero, List.append_nil]
  · have hlt : i < init.length := by omega
    rw [List.set_append_left _ _ hlt, List.dropLast_concat,
      List.eraseIdx_append_of_lt_length hlt]
    exact (List.set_perm_cons_eraseIdx hlt last).trans (List.perm_append_singleton _ _).symm

theorem net_swapRemove {l : List UnitBalance} {i : ℕ} (hi : i < l.length) (w : Bytes32) :
    net l w = (if l[i].unit = w then l[i].pos - l[i].neg else 0) + net (swapRemove l i) w := by
  rw [net_perm (swapRemove_perm hi), ← net_cons, net_perm (List.getElem_cons_eraseIdx_perm hi)]

/-- `swap_remove(i)` leaves the entries below `i` in place. -/
theorem swapRemove_getElem? {α : Type} {l : List α} {i j : ℕ} (hi : i < l.length) (hj : j < i) :
    (swapRemove l i)[j]? = l[j]? := by
  obtain ⟨last, hlast⟩ : ∃ last, l.getLast? = some last :=
    ⟨_, List.getLast?_eq_some_getLast (List.ne_nil_of_length_pos (by omega))⟩
  rw [swapRemove, hlast, List.getElem?_dropLast, if_pos (by rw [List.length_set]; omega),
    List.getElem?_set_ne (by omega)]

/-- The loop of `clear_zeros`: it keeps the net values, keeps only entries it
was given, and leaves no zero entry, as long as the entries it has passed are
not zero and it has fuel for the rest. -/
theorem clearZerosLoop_spec : ∀ (fuel i : ℕ) (bs : List UnitBalance), bs.length ≤ i + fuel →
    (∀ j < i, ∀ b, bs[j]? = some b → b.isZero = false) →
    (∀ w, net (clearZerosLoop fuel i bs) w = net bs w) ∧
      ∀ b ∈ clearZerosLoop fuel i bs, b ∈ bs ∧ b.isZero = false := by
  have hdone : ∀ (i : ℕ) (bs : List UnitBalance), bs.length ≤ i →
      (∀ j < i, ∀ b, bs[j]? = some b → b.isZero = false) →
      ∀ b ∈ bs, b ∈ bs ∧ b.isZero = false := by
    intro i bs hlen hpassed b hb
    obtain ⟨j, hj, hjb⟩ := List.getElem_of_mem hb
    exact ⟨hb, hpassed j (by omega) b (by rw [List.getElem?_eq_getElem hj, hjb])⟩
  intro fuel
  induction fuel with
  | zero =>
    intro i bs hlen hpassed
    exact ⟨fun w => rfl, hdone i bs (by omega) hpassed⟩
  | succ fuel ih =>
    intro i bs hlen hpassed
    cases hi : bs[i]? with
    | none =>
      rw [clearZerosLoop, hi]
      exact ⟨fun w => rfl, hdone i bs (List.getElem?_eq_none_iff.mp hi) hpassed⟩
    | some b =>
      obtain ⟨hilt, hib⟩ := List.getElem?_eq_some_iff.mp hi
      rw [clearZerosLoop, hi]
      dsimp only
      split
      · -- a zero entry: swapped out, which does not move the net values
        rename_i hzero
        have hlen' : (swapRemove bs i).length = bs.length - 1 := by
          rw [(swapRemove_perm hilt).length_eq, List.length_eraseIdx_of_lt hilt]
        obtain ⟨hnet, hmem⟩ := ih i (swapRemove bs i) (by omega) fun j hj b' hb' =>
          hpassed j hj b' (by rwa [swapRemove_getElem? hilt hj] at hb')
        refine ⟨fun w => ?_, fun b' hb' => ?_⟩
        · have hsame : b.pos = b.neg := of_decide_eq_true hzero
          rw [hnet, net_swapRemove hilt w, hib, hsame, sub_self, ite_self, zero_add]
        · obtain ⟨hin, hnz⟩ := hmem b' hb'
          exact ⟨List.mem_of_mem_eraseIdx ((swapRemove_perm hilt).subset hin), hnz⟩
      · rename_i hnonzero
        exact ih (i + 1) bs (by omega) fun j hj b' hb' => by
          rcases Nat.lt_succ_iff_lt_or_eq.mp hj with hj | rfl
          · exact hpassed j hj b' hb'
          · rw [hi, Option.some.injEq] at hb'
            subst hb'
            simpa using hnonzero

theorem clearZeros_spec (self : BalanceWitness) :
    (∀ w, net self.clearZeros.balances w = net self.balances w) ∧
      ∀ b ∈ self.clearZeros.balances, b ∈ self.balances ∧ b.isZero = false :=
  clearZerosLoop_spec _ 0 _ (by omega) fun j hj => absurd hj (Nat.not_lt_zero j)

/-! ### The folds of `from_ptx` and `combine` -/

/-- The value of the notes of one unit, summed modulo `2 ^ 64`. -/
def unitValue (notes : List NoteWitness) (unit : Bytes32) : UInt64 :=
  ((notes.filter (·.unit = unit)).map (·.value)).sum

theorem unitValue_cons (note : NoteWitness) (notes : List NoteWitness) (unit : Bytes32) :
    unitValue (note :: notes) unit = (if note.unit = unit then note.value else 0) + unitValue notes unit := by
  unfold unitValue
  by_cases h : note.unit = unit <;> simp [h]

theorem unitValue_append (notes notes' : List NoteWitness) (unit : Bytes32) :
    unitValue (notes ++ notes') unit = unitValue notes unit + unitValue notes' unit := by
  unfold unitValue
  rw [List.filter_append, List.map_append, List.sum_append]

section Folds

variable {α : Type} (note : α → NoteWitness) (w : Bytes32)

theorem net_foldl_insertNegative : ∀ (l : List α) (c : BalanceWitness),
    net (l.foldl (fun b x => b.insertNegative (note x).unit (note x).value) c).balances w =
      net c.balances w - unitValue (l.map note) w
  | [], c => by simp [unitValue]
  | x :: l, c => by
    rw [List.foldl_cons, net_foldl_insertNegative l, net_insertNegative, List.map_cons, unitValue_cons]
    by_cases h : (note x).unit = w
    · simp only [h, if_true]
      abel
    · simp [h, Ne.symm h]

theorem net_foldl_insertPositive : ∀ (l : List α) (c : BalanceWitness),
    net (l.foldl (fun b x => b.insertPositive (note x).unit (note x).value) c).balances w =
      net c.balances w + unitValue (l.map note) w
  | [], c => by simp [unitValue]
  | x :: l, c => by
    rw [List.foldl_cons, net_foldl_insertPositive l, net_insertPositive, List.map_cons, unitValue_cons]
    by_cases h : (note x).unit = w
    · simp only [h, if_true]
      abel
    · simp [h, Ne.symm h]

end Folds

/-- A partial transaction's balance nets its outputs against its inputs, unit by unit. -/
theorem net_fromPtx (ptx : PartialTxWitness) (blinding : Vector UInt8 16) (w : Bytes32) :
    net (fromPtx ptx blinding).balances w =
      unitValue (ptx.outputs.map (·.note)) w - unitValue (ptx.inputs.map (·.note)) w := by
  have hpos := net_foldl_insertPositive (fun output : OutputWitness => output.note) w ptx.outputs
  have hneg := net_foldl_insertNegative (fun input : InputWitness => input.note) w ptx.inputs
  rw [fromPtx, (clearZeros_spec _).1 w, hpos, hneg, zero, net_nil, zero_sub, neg_add_eq_sub]

theorem net_foldl_combineStep (w : Bytes32) : ∀ (l : List UnitBalance) (c : BalanceWitness),
    net (l.foldl combineStep c).balances w = net c.balances w + net l w
  | [], c => by simp
  | b :: l, c => by
    rw [List.foldl_cons, net_foldl_combineStep w l, net_combineStep, net_cons, add_assoc]

theorem nodup_foldl_combineStep : ∀ (l : List UnitBalance) {c : BalanceWitness},
    (c.balances.map (·.unit)).Nodup → ((l.foldl combineStep c).balances.map (·.unit)).Nodup
  | [], _, h => h
  | b :: l, _, h => nodup_foldl_combineStep l (nodup_combineStep h b)

/-- `combine` is zero exactly when the net values of its balances cancel, unit
by unit, modulo `2 ^ 64`. -/
theorem combine_isZero_iff (balances : List BalanceWitness) (blinding : Vector UInt8 16) :
    (combine balances blinding).isZero = true ↔
      ∀ w, (balances.map fun b => net b.balances w).sum = 0 := by
  let step := fun (combined balance : BalanceWitness) => balance.balances.foldl combineStep combined
  have hfold : ∀ (bs : List BalanceWitness) (c : BalanceWitness), (c.balances.map (·.unit)).Nodup →
      (∀ w, net (bs.foldl step c).balances w = net c.balances w + (bs.map fun b => net b.balances w).sum) ∧
        ((bs.foldl step c).balances.map (·.unit)).Nodup := by
    intro bs
    induction bs with
    | nil => intro c h; exact ⟨fun w => by simp, h⟩
    | cons b bs ih =>
      intro c h
      obtain ⟨hnet, hnodup⟩ := ih (step c b) (nodup_foldl_combineStep _ h)
      refine ⟨fun w => ?_, hnodup⟩
      rw [List.foldl_cons, hnet, net_foldl_combineStep, List.map_cons, List.sum_cons, add_assoc]
  obtain ⟨hnet, hnodup⟩ := hfold balances (zero blinding) List.nodup_nil
  replace hnet : ∀ w, net (balances.foldl step (zero blinding)).balances w =
      (balances.map fun b => net b.balances w).sum := fun w => by
    rw [hnet w, zero, net_nil, zero_add]
  obtain ⟨hclear, hmem⟩ := clearZeros_spec (balances.foldl step (zero blinding))
  unfold combine isZero
  rw [List.isEmpty_iff]
  constructor
  · intro hempty w
    rw [← hnet, ← hclear, hempty, net_nil]
  · intro hcancel
    refine List.eq_nil_iff_forall_not_mem.mpr fun b hb => ?_
    obtain ⟨hbmem, hnonzero⟩ := hmem b hb
    have hb0 : b.pos - b.neg = 0 := by
      rw [← net_of_mem hnodup hbmem, hnet, hcancel]
    simp [UnitBalance.isZero, sub_eq_zero.mp hb0] at hnonzero

end BalanceWitness

/-! ## Soundness of the bundle balance

The guest `bundle_balance` commits to `bundle.balance()` and the ledger accepts
a bundle whose balance is zero. Values are `u64` and the sums wrap, so zero
balance says that inputs and outputs agree modulo `2 ^ 64` for each unit, and no
more. -/

/-- A `u64` sum is the sum of the naturals, wrapped. -/
theorem toNat_list_sum : ∀ l : List UInt64, l.sum.toNat = (l.map UInt64.toNat).sum % 2 ^ 64
  | [] => rfl
  | a :: l => by
    rw [List.sum_cons, UInt64.toNat_add, toNat_list_sum l, List.map_cons, List.sum_cons,
      Nat.add_mod_mod]

/-- The value of the notes of one unit, over the naturals. -/
def noteValue (notes : List NoteWitness) (unit : Bytes32) : ℕ :=
  ((notes.filter (·.unit = unit)).map (·.value.toNat)).sum

theorem toNat_unitValue (notes : List NoteWitness) (unit : Bytes32) :
    (BalanceWitness.unitValue notes unit).toNat = noteValue notes unit % 2 ^ 64 := by
  rw [BalanceWitness.unitValue, toNat_list_sum, List.map_map]
  rfl

namespace BundleWitness

/-- What a bundle spends of one unit. -/
def inputValue (bundle : BundleWitness) (unit : Bytes32) : ℕ :=
  noteValue ((bundle.partials.flatMap (·.inputs)).map (·.note)) unit

/-- What a bundle creates of one unit. -/
def outputValue (bundle : BundleWitness) (unit : Bytes32) : ℕ :=
  noteValue ((bundle.partials.flatMap (·.outputs)).map (·.note)) unit

open BalanceWitness in
/-- The balances of the partial transactions net all outputs against all inputs. -/
theorem net_partials (w : Bytes32) : ∀ partials : List PartialTxWitness,
    ((partials.map PartialTxWitness.balance).map fun b => net b.balances w).sum =
      unitValue ((partials.flatMap (·.outputs)).map (·.note)) w -
        unitValue ((partials.flatMap (·.inputs)).map (·.note)) w
  | [] => by simp [unitValue]
  | ptx :: partials => by
    rw [List.map_cons, List.map_cons, List.sum_cons, net_partials w partials,
      PartialTxWitness.balance, net_fromPtx, List.flatMap_cons, List.flatMap_cons, List.map_append,
      List.map_append, unitValue_append, unitValue_append]
    abel

theorem balance_isZero_iff (bundle : BundleWitness) :
    bundle.balance.isZero = true ↔
      ∀ unit, bundle.inputValue unit % 2 ^ 64 = bundle.outputValue unit % 2 ^ 64 := by
  rw [BundleWitness.balance, BalanceWitness.combine_isZero_iff]
  refine forall_congr' fun w => ?_
  rw [net_partials, sub_eq_zero, ← UInt64.toNat_inj, toNat_unitValue, toNat_unitValue, eq_comm]
  rfl

/-- Two outputs of `2 ^ 63` of one unit, and no input: the bundle balances. -/
example :
    let unit : Bytes32 := Vector.replicate 32 0
    let note : NoteWitness := ⟨2 ^ 63, unit, ⟨unit⟩, unit, ⟨unit⟩⟩
    let bundle : BundleWitness := ⟨[⟨[], [⟨note, ⟨unit⟩⟩, ⟨note, ⟨unit⟩⟩], Vector.replicate 16 0⟩]⟩
    bundle.balance.isZero = true ∧ bundle.inputValue unit = 0 ∧ bundle.outputValue unit = 2 ^ 64 := by
  decide +kernel

end BundleWitness

end Cl
