/-
# Keyed tables

A table with at most one value per key is Mathlib's `AList` over a constant family.
This file adds what the development needs beyond `lookup`, `insert` and `erase`:
counting the values with a property (`count`), the restriction to a set of keys
(`restrict`), the effect of a fold that visits each key of a list once
(`foldl_pointwise`), and changes of all values (`mapVals`) or of the keys (`Renames`).
-/
import Mathlib.Data.Finset.Card
import Mathlib.Data.Set.Function
import Mathlib.Data.List.AList

/-- A finite table from keys to values. -/
abbrev Table (κ α : Type) := AList fun _ : κ => α

namespace Table

variable {κ α : Type} [DecidableEq κ]

/-- The number of entries. -/
def size (t : Table κ α) : ℕ := t.entries.length

/-- The number of entries whose value satisfies `p`. -/
def count (p : α → Bool) (t : Table κ α) : ℕ := t.entries.countP fun e => p e.2

omit [DecidableEq κ] in
/-- Not more are counted than there are. -/
theorem count_le_size (p : α → Bool) (t : Table κ α) : count p t ≤ t.size :=
  List.countP_le_length

/-! ## Counting under insertion and removal -/

/-- Removal from a table is removal from its entries. -/
theorem entries_erase (t : Table κ α) (k : κ) : (t.erase k).entries = t.entries.kerase k := rfl

/-- Inserting replaces the old value. -/
theorem count_insert (p : α → Bool) (t : Table κ α) (k : κ) (a : α) :
    count p (t.insert k a) = count p (t.erase k) + if p a then 1 else 0 := by
  simp [count, AList.entries_insert, entries_erase, List.countP_cons]

/-- Inserting adds one entry to the others. -/
theorem size_insert (t : Table κ α) (k : κ) (a : α) :
    size (t.insert k a) = size (t.erase k) + 1 := by
  simp [size, AList.entries_insert, entries_erase]

/-- An entry of a table together with the rest of the table. -/
theorem perm_cons_erase {t : Table κ α} {k : κ} {a : α} (h : t.lookup k = some a) :
    t.entries.Perm (⟨k, a⟩ :: (t.erase k).entries) := by
  have hk : k ∈ t.entries.keys := AList.lookup_isSome.1 (by rw [h]; rfl)
  obtain ⟨b, l₁, l₂, -, hent, herase⟩ := List.exists_of_kerase hk
  have hb : t.lookup k = some b :=
    (List.mem_dlookup_iff t.nodupKeys).2 (by rw [hent]; simp)
  obtain rfl : b = a := Option.some.inj (hb.symm.trans h)
  have hrest : (t.erase k).entries = l₁ ++ l₂ := herase
  rw [hent, hrest]
  exact List.perm_middle

/-- A key's value is counted, and the others. -/
theorem count_of_lookup {t : Table κ α} {k : κ} {a : α} (p : α → Bool)
    (h : t.lookup k = some a) :
    count p t = count p (t.erase k) + if p a then 1 else 0 := by
  rw [count, (perm_cons_erase h).countP_eq, List.countP_cons]
  rfl

/-- A key has one entry. -/
theorem size_of_lookup {t : Table κ α} {k : κ} {a : α} (h : t.lookup k = some a) :
    t.size = size (t.erase k) + 1 := by
  rw [size, (perm_cons_erase h).length_eq]
  rfl

/-- Removing an absent key changes nothing. -/
theorem erase_of_lookup_none {t : Table κ α} {k : κ} (h : t.lookup k = none) :
    t.erase k = t :=
  AList.ext (List.kerase_of_notMem_keys (AList.lookup_eq_none.1 h))

/-- Some entry is counted as soon as the count is positive, and conversely. -/
theorem count_pos_of_lookup {t : Table κ α} {k : κ} {a : α} {p : α → Bool}
    (h : t.lookup k = some a) (hp : p a = true) : 0 < count p t := by
  rw [count_of_lookup p h, if_pos hp]
  omega

/-- Tables with the same lookups have the same entries, up to order. -/
theorem entries_perm {t t' : Table κ α} (h : ∀ k, t.lookup k = t'.lookup k) :
    t.entries.Perm t'.entries := by
  refine List.lookup_ext t.nodupKeys t'.nodupKeys fun k a => ?_
  rw [show t.entries.dlookup k = t'.entries.dlookup k from h k]

/-- Tables with the same lookups count the same. -/
theorem count_congr {t t' : Table κ α} (p : α → Bool)
    (h : ∀ k, t.lookup k = t'.lookup k) : count p t = count p t' :=
  (entries_perm h).countP_eq _

/-- Tables with the same lookups have the same size. -/
theorem size_congr {t t' : Table κ α} (h : ∀ k, t.lookup k = t'.lookup k) :
    t.size = t'.size :=
  (entries_perm h).length_eq

/-- A table whose keys lie in a finite set is no larger than the set. -/
theorem size_le_card {t : Table κ α} {s : Finset κ} (h : ∀ k a, t.lookup k = some a → k ∈ s) :
    t.size ≤ s.card := by
  have hsub : t.keys.toFinset ⊆ s := by
    intro k hk
    obtain ⟨a, ha⟩ := Option.isSome_iff_exists.1 (AList.lookup_isSome.2 (List.mem_toFinset.1 hk))
    exact h k a ha
  have hcard : t.keys.toFinset.card = t.size := by
    rw [List.toFinset_card_of_nodup t.keys_nodup, AList.keys, List.keys, List.length_map, size]
  rw [← hcard]
  exact Finset.card_le_card hsub

/-! ## Restriction to a set of keys -/

/-- The entries whose key satisfies `P`. -/
def restrict (P : κ → Bool) (t : Table κ α) : Table κ α :=
  ⟨t.entries.filter fun e => P e.1, t.nodupKeys.sublist List.filter_sublist⟩

/-- The keys with the property are kept. -/
theorem lookup_restrict (P : κ → Bool) (t : Table κ α) (k : κ) :
    (restrict P t).lookup k = if P k then t.lookup k else none := by
  ext a
  have hmem : a ∈ (restrict P t).lookup k ↔ a ∈ t.lookup k ∧ P k = true := by
    rw [AList.lookup, AList.lookup, List.mem_dlookup_iff (restrict P t).nodupKeys,
      List.mem_dlookup_iff t.nodupKeys, restrict, List.mem_filter]
  rw [← Option.mem_def, ← Option.mem_def, hmem]
  cases P k <;> simp

omit [DecidableEq κ] in
/-- A count splits along any set of keys. -/
theorem count_restrict_add (p : α → Bool) (P : κ → Bool) (t : Table κ α) :
    count p (restrict P t) + count p (restrict (fun k => !P k) t) = count p t := by
  have hperm := List.filter_append_perm (fun e : Sigma fun _ : κ => α => P e.1) t.entries
  rw [count, count, count, ← hperm.countP_eq, List.countP_append]
  rfl

omit [DecidableEq κ] in
/-- There are not more of them. -/
theorem size_restrict_le (P : κ → Bool) (t : Table κ α) : size (restrict P t) ≤ t.size :=
  List.length_filter_le _ _

/-! ## Folds that visit each key once -/

variable {σ β : Type}

/-- A fold whose step at key `k` changes component `k` by `g` and leaves the others
alone changes exactly the components of the visited keys. -/
theorem foldl_pointwise (look : σ → κ → β) (f : σ → κ → σ) (g : β → β)
    (hf : ∀ s k k', look (f s k) k' = if k' = k then g (look s k) else look s k')
    {ks : List κ} (hks : ks.Nodup) (s : σ) (k : κ) :
    look (ks.foldl f s) k = if k ∈ ks then g (look s k) else look s k := by
  induction ks generalizing s with
  | nil => simp
  | cons k₀ ks ih =>
      obtain ⟨hk₀, hnd⟩ := List.nodup_cons.1 hks
      rw [List.foldl_cons, ih hnd, hf]
      by_cases hk : k = k₀
      · subst hk
        simp [hk₀]
      · simp [hk]

/-! ## Changing the values -/

section MapVals

variable (g : α → β)

/-- The table with every value changed by `g`, its entries in the same order. -/
def mapVals (t : Table κ α) : Table κ β :=
  ⟨t.entries.map (Sigma.map id fun _ => g), t.nodupKeys.map₂ _ _⟩

omit [DecidableEq κ] in
@[simp] theorem entries_mapVals (t : Table κ α) :
    (mapVals g t).entries = t.entries.map (Sigma.map id fun _ => g) := rfl

omit [DecidableEq κ] in
@[simp] theorem mapVals_empty : mapVals g (∅ : Table κ α) = ∅ := rfl

@[simp] theorem lookup_mapVals (t : Table κ α) (k : κ) :
    (mapVals g t).lookup k = (t.lookup k).map g := List.dlookup_map₂ k

/-- Mapping the values commutes with erasing. -/
theorem mapVals_erase (t : Table κ α) (k : κ) :
    mapVals g (t.erase k) = (mapVals g t).erase k := by
  apply AList.ext
  rw [entries_mapVals, entries_erase, entries_erase, entries_mapVals, List.kerase, List.kerase,
    List.eraseP_map]
  rfl

/-- It commutes with inserting. -/
theorem mapVals_insert (t : Table κ α) (k : κ) (a : α) :
    mapVals g (t.insert k a) = (mapVals g t).insert k (g a) := by
  have herase := congrArg AList.entries (mapVals_erase g t k)
  apply AList.ext
  rw [entries_mapVals, AList.entries_insert, AList.entries_insert, List.map_cons]
  congr 1

omit [DecidableEq κ] in
@[simp] theorem size_mapVals (t : Table κ α) : size (mapVals g t) = size t := List.length_map _

end MapVals

/-! ## Renaming the keys -/

section Renames

variable {κ' : Type} [DecidableEq κ'] {C : κ → Prop} {φ : κ → κ'} {g : κ → α → β}
  {t : Table κ α} {t' : Table κ' β}

/-- `t'` is `t` with its keys, all of them in `C`, renamed by `φ` and its values by `g`; nothing
is said about the order of the entries. -/
structure Renames (C : κ → Prop) (φ : κ → κ') (g : κ → α → β) (t : Table κ α)
    (t' : Table κ' β) : Prop where
  keys : ∀ k ∈ t, C k
  lookup : ∀ k, C k → t'.lookup (φ k) = (t.lookup k).map (g k)
  onto : ∀ k' ∈ t', ∃ k, C k ∧ φ k = k'

/-- Empty tables. -/
theorem Renames.empty : Renames C φ g (∅ : Table κ α) (∅ : Table κ' β) where
  keys := by simp
  lookup := by simp
  onto := by simp

/-- Inserting on both sides. -/
theorem Renames.insert (hφ : Set.InjOn φ {k | C k}) (h : Renames C φ g t t') {k : κ} (hk : C k)
    (a : α) : Renames C φ g (t.insert k a) (t'.insert (φ k) (g k a)) where
  keys := by
    intro j hj
    rcases (AList.mem_insert t).1 hj with rfl | hj
    · exact hk
    · exact h.keys j hj
  lookup := by
    intro j hj
    by_cases hjk : j = k
    · rw [hjk, AList.lookup_insert, AList.lookup_insert, Option.map_some]
    · have hne : φ j ≠ φ k := fun heq => hjk (hφ hj hk heq)
      rw [AList.lookup_insert_ne hjk, AList.lookup_insert_ne hne, h.lookup j hj]
  onto := by
    intro j' hj'
    rcases (AList.mem_insert t').1 hj' with rfl | hj'
    · exact ⟨k, hk, rfl⟩
    · exact h.onto j' hj'

/-- Tables made of renamed ones by a change or removal of each value. -/
theorem Renames.bind (h : Renames C φ g t t') {u : Table κ α} {u' : Table κ' β}
    {F : κ → α → Option α} {G : κ' → β → Option β}
    (hF : ∀ k a, C k → G (φ k) (g k a) = (F k a).map (g k))
    (hu : ∀ k, u.lookup k = (t.lookup k).bind (F k))
    (hu' : ∀ k', u'.lookup k' = (t'.lookup k').bind (G k')) : Renames C φ g u u' where
  keys := by
    intro k hk
    obtain ⟨a, ha⟩ := Option.isSome_iff_exists.1 (AList.lookup_isSome.2 hk)
    rw [hu, Option.bind_eq_some_iff] at ha
    obtain ⟨b, hb, -⟩ := ha
    exact h.keys k (AList.lookup_isSome.1 (by rw [hb]; rfl))
  lookup := by
    intro k hk
    rw [hu', h.lookup k hk, hu]
    cases t.lookup k with
    | none => rfl
    | some a => exact hF k a hk
  onto := by
    intro k' hk'
    obtain ⟨a, ha⟩ := Option.isSome_iff_exists.1 (AList.lookup_isSome.2 hk')
    rw [hu', Option.bind_eq_some_iff] at ha
    obtain ⟨b, hb, -⟩ := ha
    exact h.onto k' (AList.lookup_isSome.1 (by rw [hb]; rfl))

/-- Only the lookups of the tables matter. -/
theorem Renames.congr (h : Renames C φ g t t') {u : Table κ α} {u' : Table κ' β}
    (hu : ∀ k, u.lookup k = t.lookup k) (hu' : ∀ k', u'.lookup k' = t'.lookup k') :
    Renames C φ g u u' := by
  refine h.bind (F := fun _ => some) (G := fun _ => some) (fun _ _ _ => rfl) ?_ ?_
  · intro k
    rw [hu, Option.bind_fun_some]
  · intro k'
    rw [hu', Option.bind_fun_some]

/-- The entries are what lookups find. -/
theorem mem_entries_iff {t : Table κ α} {e : Sigma fun _ : κ => α} :
    e ∈ t.entries ↔ t.lookup e.1 = some e.2 :=
  (List.mem_dlookup_iff t.nodupKeys).symm

/-- The entries of a renamed table are the renamed entries, up to order. -/
theorem Renames.entries_perm (hφ : Set.InjOn φ {k | C k}) (h : Renames C φ g t t') :
    t'.entries.Perm (t.entries.map fun e => ⟨φ e.1, g e.1 e.2⟩) := by
  have hinj : (t.entries.map fun e => (⟨φ e.1, g e.1 e.2⟩ : Sigma fun _ : κ' => β)).Nodup := by
    apply List.Nodup.of_map (f := Sigma.fst)
    rw [List.map_map]
    show (t.entries.map fun e => φ e.1).Nodup
    have hkeys : (t.keys.map φ).Nodup := by
      apply List.Nodup.map_on _ t.keys_nodup
      intro j hj k hk heq
      exact hφ (h.keys j hj) (h.keys k hk) heq
    rwa [AList.keys, List.keys, List.map_map] at hkeys
  -- neither list repeats an entry, so it is enough that they have the same ones
  have hnodup : t'.entries.Nodup := t'.nodupKeys.nodup
  rw [List.perm_ext_iff_of_nodup hnodup hinj]
  rintro ⟨k', b⟩
  rw [mem_entries_iff, List.mem_map]
  constructor
  · intro hb
    obtain ⟨k, hk, rfl⟩ := h.onto k' (AList.lookup_isSome.1 (by rw [hb]; rfl))
    rw [h.lookup k hk, Option.map_eq_some_iff] at hb
    obtain ⟨a, ha, rfl⟩ := hb
    exact ⟨⟨k, a⟩, mem_entries_iff.2 ha, rfl⟩
  · rintro ⟨⟨k, a⟩, hmem, heq⟩
    obtain ⟨rfl, rfl⟩ := Sigma.mk.inj heq
    have hk : t.lookup k = some a := mem_entries_iff.1 hmem
    have hC := h.keys k (AList.lookup_isSome.1 (by rw [hk]; rfl))
    rw [h.lookup k hC, hk, Option.map_some]

/-- As many values have a property on both sides. -/
theorem Renames.count (hφ : Set.InjOn φ {k | C k}) (h : Renames C φ g t t') {p : α → Bool}
    {p' : β → Bool} (hp : ∀ k a, p' (g k a) = p a) : Table.count p' t' = Table.count p t := by
  rw [Table.count, (h.entries_perm hφ).countP_eq, List.countP_map]
  apply List.countP_congr
  intro e _
  simp [hp]

end Renames

end Table
