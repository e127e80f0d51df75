import NomosNode.Lib.LinkedMap
import Mathlib.Data.List.AList

/-!
# The mock mempool

`nomos-services/mempool/src/backend/mockpool/mod.rs`: pending items in a
`LinkedHashMap` in the order they were added, the items of each block, and the
block each marked key was marked in. Over every run from the empty pool no key
is both pending and marked, items are moved and never copied, and `view` keeps
the order they were added in. But `mark_in_block` records a key that is no
longer pending too, so marking a key in a second block makes `status` name that
block while the item is in the first. The blocks' items are an association list
and the marked keys a function, since no method reads the order of a `BTreeMap`.
-/

namespace NomosMempool

inductive MempoolError
  | existingItem
  deriving DecidableEq

inductive Status (BlockId : Type)
  | unknown
  | pending
  | rejected
  | inBlock (block : BlockId)
  deriving DecidableEq

structure MockPool (BlockId Item Key : Type) where
  pendingItems : LinkedMap Key Item
  inBlockItems : AList fun _ : BlockId => List Item
  inBlockItemsById : Key → Option BlockId
  lastItemTimestamp : UInt64

namespace MockPool

variable {BlockId Item Key : Type} [DecidableEq BlockId] [DecidableEq Key]

def new : MockPool BlockId Item Key := ⟨LinkedMap.empty, ∅, fun _ => none, 0⟩

/-- `add_item`, with the clock's reading `now` in milliseconds. -/
def addItem (self : MockPool BlockId Item Key) (key : Key) (item : Item) (now : UInt64) :
    Except MempoolError (MockPool BlockId Item Key) :=
  if self.pendingItems.containsKey key || (self.inBlockItemsById key).isSome then
    .error .existingItem
  else .ok { self with pendingItems := self.pendingItems.insert key item, lastItemTimestamp := now }

def view (self : MockPool BlockId Item Key) (_ancestorHint : BlockId) : List Item :=
  self.pendingItems.values

/-- The loop of `mark_in_block`: the items of the keys that are pending, taken
out of the pending ones in the order of the keys. -/
def takePending (pending : LinkedMap Key Item) : List Key → LinkedMap Key Item × List Item
  | [] => (pending, [])
  | key :: keys =>
    match pending.remove key with
    | (some item, pending) => ((takePending pending keys).1, item :: (takePending pending keys).2)
    | (none, pending) => takePending pending keys

def markInBlock (self : MockPool BlockId Item Key) (keys : List Key) (block : BlockId) :
    MockPool BlockId Item Key :=
  { self with
    pendingItems := (takePending self.pendingItems keys).1
    inBlockItems := self.inBlockItems.insert block
      ((self.inBlockItems.lookup block).getD [] ++ (takePending self.pendingItems keys).2)
    inBlockItemsById := fun key => if key ∈ keys then some block else self.inBlockItemsById key }

/-- `block_items`, of the tests of the source. -/
def blockItems (self : MockPool BlockId Item Key) (block : BlockId) : Option (List Item) :=
  self.inBlockItems.lookup block

def prune (self : MockPool BlockId Item Key) (keys : List Key) : MockPool BlockId Item Key :=
  { self with pendingItems := keys.foldl LinkedMap.erase self.pendingItems }

def pendingItemCount (self : MockPool BlockId Item Key) : ℕ := self.pendingItems.entries.length

def status (self : MockPool BlockId Item Key) (items : List Key) : List (Status BlockId) :=
  items.map fun key =>
    if self.pendingItems.containsKey key then .pending
    else match self.inBlockItemsById key with
      | some block => .inBlock block
      | none => .unknown

/-! ## The loop of `mark_in_block` -/

theorem takePending_cons (pending : LinkedMap Key Item) (key : Key) (keys : List Key) :
    takePending pending (key :: keys) =
      ((takePending (pending.erase key) keys).1,
        (pending.get? key).toList ++ (takePending (pending.erase key) keys).2) := by
  simp only [takePending, LinkedMap.remove]
  cases pending.get? key <;> rfl

theorem mem_keys_takePending {pending : LinkedMap Key Item} {keys : List Key} {key : Key} :
    key ∈ (takePending pending keys).1.keys ↔ key ∈ pending.keys ∧ key ∉ keys := by
  induction keys generalizing pending with
  | nil => simp [takePending]
  | cons first keys ih =>
    rw [takePending_cons, ih, LinkedMap.mem_keys_erase]
    simp only [List.mem_cons, not_or]
    tauto

theorem takePending_sublist (pending : LinkedMap Key Item) (keys : List Key) :
    (takePending pending keys).1.entries.Sublist pending.entries := by
  induction keys generalizing pending with
  | nil => exact List.Sublist.refl _
  | cons key keys ih =>
    rw [takePending_cons]
    exact (ih _).trans (pending.entries_erase_sublist key)

open List in
/-- The loop only moves items: those left pending and those taken are the
pending ones. -/
theorem values_perm_takePending (pending : LinkedMap Key Item) (keys : List Key) :
    pending.values.Perm ((takePending pending keys).1.values ++ (takePending pending keys).2) := by
  induction keys generalizing pending with
  | nil => simp [takePending]
  | cons key keys ih =>
    rw [takePending_cons]
    calc pending.values ~ (pending.get? key).toList ++ (pending.erase key).values :=
          pending.values_perm_erase key
      _ ~ (pending.get? key).toList ++ ((takePending (pending.erase key) keys).1.values ++
            (takePending (pending.erase key) keys).2) := (ih _).append_left _
      _ ~ _ := by
        rw [← List.append_assoc, ← List.append_assoc]
        exact List.perm_append_comm.append_right _

open List in
/-- Appending to the items of a block appends to the items of all blocks. -/
theorem flatMap_insert_append_perm (m : AList fun _ : BlockId => List Item) (block : BlockId)
    (items : List Item) :
    (m.insert block ((m.lookup block).getD [] ++ items)).entries.flatMap Sigma.snd ~
      m.entries.flatMap Sigma.snd ++ items := by
  have hsplit : m.entries.flatMap Sigma.snd ~
      (m.lookup block).getD [] ++ (m.entries.kerase block).flatMap Sigma.snd := by
    by_cases h : block ∈ m
    · obtain ⟨old, l₁, l₂, -, hl, hk⟩ := List.exists_of_kerase h
      have hlookup : m.lookup block = some old :=
        AList.mem_lookup_iff.mpr (hl ▸ List.mem_append_right _ List.mem_cons_self)
      rw [hlookup, hk, hl]
      simpa only [List.flatMap_append, List.flatMap_cons, Option.getD_some] using
        perm_append_comm_assoc _ _ _
    · rw [AList.lookup_eq_none.mpr h, List.kerase_of_notMem_keys h]
      rfl
  rw [AList.entries_insert, List.flatMap_cons]
  calc (m.lookup block).getD [] ++ items ++ (m.entries.kerase block).flatMap Sigma.snd
      ~ (m.lookup block).getD [] ++ (m.entries.kerase block).flatMap Sigma.snd ++ items := by
        rw [List.append_assoc, List.append_assoc]
        exact perm_append_comm.append_left _
    _ ~ m.entries.flatMap Sigma.snd ++ items := hsplit.symm.append_right items

/-! ## `add_item` -/

theorem containsKey_eq_false {pending : LinkedMap Key Item} {key : Key} :
    pending.containsKey key = false ↔ key ∉ pending.keys := by
  rw [LinkedMap.containsKey, Option.isSome_eq_false_iff, Option.isNone_iff_eq_none,
    LinkedMap.get?_eq_none_iff]

omit [DecidableEq BlockId] in
/-- `add_item` succeeds exactly on a key neither pending nor marked, and adds it
at the back. -/
theorem addItem_eq_ok {self pool : MockPool BlockId Item Key} {key : Key} {item : Item}
    {now : UInt64} :
    self.addItem key item now = .ok pool ↔ key ∉ self.pendingItems.keys ∧
      self.inBlockItemsById key = none ∧
      pool = { self with pendingItems := self.pendingItems.insert key item, lastItemTimestamp := now } := by
  unfold addItem
  split
  · rename_i h
    simp only [Bool.or_eq_true, Option.isSome_iff_ne_none] at h
    simp only [reduceCtorEq, false_iff, not_and]
    intro hpending hmarked
    rcases h with h | h
    · exact absurd (containsKey_eq_false.mpr hpending) (by simp [h])
    · exact absurd hmarked h
  · rename_i h
    simp only [Bool.or_eq_true, not_or, Bool.not_eq_true, Option.isSome_eq_false_iff,
      Option.isNone_iff_eq_none] at h
    simp only [Except.ok.injEq]
    exact ⟨fun hpool => ⟨containsKey_eq_false.mp h.1, h.2, hpool.symm⟩,
      fun hadded => hadded.2.2.symm⟩

/-! ## Runs -/

inductive MempoolCall (BlockId Item Key : Type)
  | addItem (key : Key) (item : Item) (now : UInt64)
  | markInBlock (keys : List Key) (block : BlockId)
  | prune (keys : List Key)

/-- The pool after a call; a refused `add_item` leaves it as it was. -/
def step : MempoolCall BlockId Item Key → MockPool BlockId Item Key → MockPool BlockId Item Key
  | .addItem key item now, pool =>
    match pool.addItem key item now with
    | .ok pool => pool
    | .error _ => pool
  | .markInBlock keys block, pool => pool.markInBlock keys block
  | .prune keys, pool => pool.prune keys

def run (calls : List (MempoolCall BlockId Item Key)) (pool : MockPool BlockId Item Key) :
    MockPool BlockId Item Key :=
  calls.foldl (fun pool c => step c pool) pool

/-- The entry a call adds: the key and the item of an `add_item` that succeeds. -/
def added : MempoolCall BlockId Item Key → MockPool BlockId Item Key → List (Key × Item)
  | .addItem key item now, pool =>
    match pool.addItem key item now with
    | .ok _ => [(key, item)]
    | .error _ => []
  | _, _ => []

/-- The entries a run adds, in order. -/
def addedByRun : List (MempoolCall BlockId Item Key) → MockPool BlockId Item Key → List (Key × Item)
  | [], _ => []
  | c :: calls, pool => added c pool ++ addedByRun calls (step c pool)

/-- An invariant of a run: its value after every call, from its value before. -/
theorem run_induction {P : MockPool BlockId Item Key → Prop} (hstep : ∀ c pool, P pool → P (step c pool))
    (calls : List (MempoolCall BlockId Item Key)) {pool : MockPool BlockId Item Key} (hpool : P pool) :
    P (run calls pool) := by
  induction calls generalizing pool with
  | nil => exact hpool
  | cons c calls ih => exact ih (hstep c pool hpool)

/-! ## No key is both pending and marked -/

def Consistent (self : MockPool BlockId Item Key) : Prop :=
  ∀ key ∈ self.pendingItems.keys, self.inBlockItemsById key = none

omit [DecidableEq BlockId] in
theorem Consistent.addItem {self pool : MockPool BlockId Item Key} (hself : self.Consistent)
    {key : Key} {item : Item} {now : UInt64} (h : self.addItem key item now = .ok pool) :
    pool.Consistent := by
  obtain ⟨-, hmarked, rfl⟩ := addItem_eq_ok.mp h
  intro key' hkey'
  rcases LinkedMap.mem_keys_insert.mp hkey' with rfl | hkey'
  · exact hmarked
  · exact hself key' hkey'

theorem Consistent.markInBlock {self : MockPool BlockId Item Key} (hself : self.Consistent)
    (keys : List Key) (block : BlockId) : (self.markInBlock keys block).Consistent := by
  intro key hkey
  obtain ⟨hpending, hnot⟩ := mem_keys_takePending.mp hkey
  simp only [MockPool.markInBlock, if_neg hnot]
  exact hself key hpending

omit [DecidableEq BlockId] in
theorem Consistent.prune {self : MockPool BlockId Item Key} (hself : self.Consistent)
    (keys : List Key) : (self.prune keys).Consistent :=
  fun key hkey => hself key (LinkedMap.mem_keys_foldl_erase.mp hkey).1

theorem Consistent.step {pool : MockPool BlockId Item Key} (hpool : pool.Consistent)
    (c : MempoolCall BlockId Item Key) : (step c pool).Consistent := by
  cases c with
  | addItem key item now =>
    simp only [MockPool.step]
    split
    · exact hpool.addItem ‹_›
    · exact hpool
  | markInBlock keys block => exact hpool.markInBlock keys block
  | prune keys => exact hpool.prune keys

omit [DecidableEq BlockId] [DecidableEq Key] in
theorem consistent_new : (new : MockPool BlockId Item Key).Consistent :=
  fun _ hkey => absurd hkey List.not_mem_nil

/-- From the empty pool, no key is ever both pending and marked in a block. -/
theorem consistent_run (calls : List (MempoolCall BlockId Item Key)) :
    (run calls (new : MockPool BlockId Item Key)).Consistent :=
  run_induction (fun c _ hpool => hpool.step c) calls consistent_new

/-! ## Items are moved, never copied -/

/-- The items of the pool: the pending ones, and those of every block. -/
def items (self : MockPool BlockId Item Key) : List Item :=
  self.pendingItems.values ++ self.inBlockItems.entries.flatMap Sigma.snd

open List in
theorem items_markInBlock (self : MockPool BlockId Item Key) (keys : List Key) (block : BlockId) :
    (self.markInBlock keys block).items ~ self.items := by
  have hblocks := flatMap_insert_append_perm self.inBlockItems block
    (takePending self.pendingItems keys).2
  have hpending := values_perm_takePending self.pendingItems keys
  simp only [items, MockPool.markInBlock]
  calc (takePending self.pendingItems keys).1.values ++ (self.inBlockItems.insert block
        ((self.inBlockItems.lookup block).getD [] ++ (takePending self.pendingItems keys).2)).entries.flatMap Sigma.snd
      ~ (takePending self.pendingItems keys).1.values ++ (self.inBlockItems.entries.flatMap Sigma.snd ++
          (takePending self.pendingItems keys).2) := hblocks.append_left _
    _ ~ ((takePending self.pendingItems keys).1.values ++ (takePending self.pendingItems keys).2) ++
          self.inBlockItems.entries.flatMap Sigma.snd := by
        rw [List.append_assoc]
        exact perm_append_comm.append_left _
    _ ~ self.pendingItems.values ++ self.inBlockItems.entries.flatMap Sigma.snd :=
        hpending.symm.append_right _

open List in
theorem items_step (c : MempoolCall BlockId Item Key) (pool : MockPool BlockId Item Key) :
    (step c pool).items <+~ pool.items ++ (added c pool).map Prod.snd := by
  cases c with
  | addItem key item now =>
    simp only [MockPool.step, added]
    split
    · rename_i pool' h
      obtain ⟨hpending, -, rfl⟩ := addItem_eq_ok.mp h
      refine Perm.subperm ?_
      simp only [items, LinkedMap.values, LinkedMap.entries_insert_of_not_mem hpending,
        List.map_append, List.map_cons, List.map_nil, List.append_assoc]
      exact perm_append_comm.append_left _
    · simp
      exact Subperm.refl _
  | markInBlock keys block =>
    simpa [added, MockPool.step] using (items_markInBlock pool keys block).subperm
  | prune keys =>
    simp only [MockPool.step, added, List.map_nil, List.append_nil, items, MockPool.prune]
    exact (((pool.pendingItems.foldl_erase_sublist keys).map Prod.snd).append_right _).subperm

open List in
theorem items_run (calls : List (MempoolCall BlockId Item Key)) (pool : MockPool BlockId Item Key) :
    (run calls pool).items <+~ pool.items ++ (addedByRun calls pool).map Prod.snd := by
  induction calls generalizing pool with
  | nil => simpa [run, addedByRun] using Subperm.refl pool.items
  | cons c calls ih =>
    have hfirst := (items_step c pool).append
      (Subperm.refl ((addedByRun calls (step c pool)).map Prod.snd))
    simp only [List.append_assoc, ← List.map_append] at hfirst
    exact (ih (step c pool)).trans hfirst

/-- From the empty pool, every item is in at most as many places, pending or in
a block, as it was added. -/
theorem items_subperm_added (calls : List (MempoolCall BlockId Item Key)) :
    (run calls (new : MockPool BlockId Item Key)).items.Subperm
      ((addedByRun calls new).map Prod.snd) := by
  simpa [items, new, LinkedMap.empty, LinkedMap.values] using items_run calls new

/-! ## The pending items stay in the order they were added -/

theorem pendingItems_step (c : MempoolCall BlockId Item Key) (pool : MockPool BlockId Item Key) :
    (step c pool).pendingItems.entries.Sublist (pool.pendingItems.entries ++ added c pool) := by
  cases c with
  | addItem key item now =>
    simp only [MockPool.step, added]
    split
    · rename_i pool' h
      obtain ⟨hpending, -, rfl⟩ := addItem_eq_ok.mp h
      rw [LinkedMap.entries_insert_of_not_mem hpending]
    · simp
  | markInBlock keys block =>
    simpa [added, MockPool.step, MockPool.markInBlock] using
      takePending_sublist pool.pendingItems keys
  | prune keys =>
    simpa [added, MockPool.step, MockPool.prune] using
      pool.pendingItems.foldl_erase_sublist keys

theorem pendingItems_run (calls : List (MempoolCall BlockId Item Key))
    (pool : MockPool BlockId Item Key) :
    (run calls pool).pendingItems.entries.Sublist
      (pool.pendingItems.entries ++ addedByRun calls pool) := by
  induction calls generalizing pool with
  | nil => simp [run, addedByRun]
  | cons c calls ih =>
    have hfirst := (pendingItems_step c pool).append_right (addedByRun calls (step c pool))
    rw [List.append_assoc] at hfirst
    exact (ih (step c pool)).trans hfirst

/-- From the empty pool, `view` gives pending items in the order they were
added. -/
theorem view_sublist_added (calls : List (MempoolCall BlockId Item Key)) (ancestorHint : BlockId) :
    ((run calls (new : MockPool BlockId Item Key)).view ancestorHint).Sublist
      ((addedByRun calls new).map Prod.snd) := by
  simpa [view, LinkedMap.values, new, LinkedMap.empty] using
    (pendingItems_run calls new).map Prod.snd

/-- Over every run from the empty pool: no key is both pending and marked in a
block, every item is held, pending or in a block, at most as many times as it
was added, and `view` lists the pending items in the order they were added. -/
theorem run_keeps_bookkeeping (calls : List (MempoolCall BlockId Item Key)) :
    (run calls (new : MockPool BlockId Item Key)).Consistent ∧
      (run calls new).items.Subperm ((addedByRun calls new).map Prod.snd) ∧
      ∀ ancestorHint, ((run calls new).view ancestorHint).Sublist
        ((addedByRun calls new).map Prod.snd) :=
  ⟨consistent_run calls, items_subperm_added calls, view_sublist_added calls⟩

/-! ## `status` and the blocks' items -/

/-- A key added and then marked in two blocks: `status` names the second block,
while its item was moved to the first and not to the second. -/
theorem status_inBlock_without_item (pool : MockPool BlockId Item Key) (key : Key) (item : Item)
    (now : UInt64) {first second : BlockId} (hne : first ≠ second)
    (hpending : key ∉ pool.pendingItems.keys) (hmarked : pool.inBlockItemsById key = none)
    (hitem : item ∉ (pool.blockItems second).getD []) :
    (run [.addItem key item now, .markInBlock [key] first, .markInBlock [key] second] pool).status
        [key] = [.inBlock second] ∧
      item ∉ ((run [.addItem key item now, .markInBlock [key] first, .markInBlock [key] second]
        pool).blockItems second).getD [] ∧
      item ∈ ((run [.addItem key item now, .markInBlock [key] first, .markInBlock [key] second]
        pool).blockItems first).getD [] := by
  set pool₁ := { pool with pendingItems := pool.pendingItems.insert key item, lastItemTimestamp := now }
  have hadd : pool.addItem key item now = .ok pool₁ := addItem_eq_ok.mpr ⟨hpending, hmarked, rfl⟩
  have htake₁ : takePending pool₁.pendingItems [key] = (pool₁.pendingItems.erase key, [item]) := by
    rw [takePending_cons, LinkedMap.get?_insert_self]
    rfl
  obtain ⟨pool₂, hpool₂⟩ : ∃ pool₂, pool₂ = pool₁.markInBlock [key] first := ⟨_, rfl⟩
  have hblocks₂ : pool₂.inBlockItems = pool.inBlockItems.insert first
      ((pool.inBlockItems.lookup first).getD [] ++ [item]) := by
    rw [hpool₂, MockPool.markInBlock, htake₁]
  have hgone : key ∉ pool₂.pendingItems.keys := fun h =>
    (mem_keys_takePending.mp (hpool₂ ▸ h)).2 List.mem_cons_self
  have htake₂ : takePending pool₂.pendingItems [key] = (pool₂.pendingItems.erase key, []) := by
    rw [takePending_cons, LinkedMap.get?_eq_none_iff.mpr hgone]
    rfl
  have hrun : run [.addItem key item now, .markInBlock [key] first, .markInBlock [key] second] pool =
      pool₂.markInBlock [key] second := by
    simp only [run, List.foldl, step, hadd, hpool₂]
  rw [hrun]
  refine ⟨?_, ?_, ?_⟩
  · have hnot : (pool₂.markInBlock [key] second).pendingItems.containsKey key = false :=
      containsKey_eq_false.mpr fun h => (mem_keys_takePending.mp h).2 List.mem_cons_self
    simp only [status, List.map_cons, List.map_nil, hnot, Bool.false_eq_true, if_false]
    simp [MockPool.markInBlock]
  · simp only [blockItems, MockPool.markInBlock, htake₂, AList.lookup_insert, hblocks₂,
      AList.lookup_insert_ne (Ne.symm hne), List.append_nil, Option.getD_some]
    exact hitem
  · simp [blockItems, MockPool.markInBlock, AList.lookup_insert_ne hne, hblocks₂]

theorem status_inBlock_without_item_of_new :
    (run [.addItem 0 7 0, .markInBlock [0] 1, .markInBlock [0] 2]
        (new : MockPool ℕ ℕ ℕ)).status [0] = [.inBlock 2] ∧
      7 ∉ ((run [.addItem 0 7 0, .markInBlock [0] 1, .markInBlock [0] 2]
        (new : MockPool ℕ ℕ ℕ)).blockItems 2).getD [] ∧
      7 ∈ ((run [.addItem 0 7 0, .markInBlock [0] 1, .markInBlock [0] 2]
        (new : MockPool ℕ ℕ ℕ)).blockItems 1).getD [] :=
  status_inBlock_without_item new 0 7 0 (by decide) List.not_mem_nil rfl List.not_mem_nil

end MockPool

end NomosMempool
