import Mathlib.Data.List.AList

/-! Hash maps as association lists with distinct keys. The list is the iteration order of the map, so
    what a program computes by iterating over a map is a function of this order. -/

namespace Lib

/-- A hash map, as the list of its entries in iteration order. -/
abbrev HashMap (κ ν : Type) := AList fun _ : κ => ν

namespace HashMap
variable {κ ν μ : Type}

theorem nodup_map_values (f : κ → ν → μ) {l : List (Sigma fun _ : κ => ν)} (h : l.NodupKeys) :
    (l.map fun e => (⟨e.1, f e.1 e.2⟩ : Sigma fun _ : κ => μ)).NodupKeys := by
  rw [List.NodupKeys, List.keys, List.map_map]
  exact h

/-- The map with every value replaced, in the same order. -/
def mapValues (f : κ → ν → μ) (m : HashMap κ ν) : HashMap κ μ :=
  ⟨m.entries.map fun e => ⟨e.1, f e.1 e.2⟩, nodup_map_values f m.nodupKeys⟩

variable [DecidableEq κ]

theorem dlookup_map_values (f : κ → ν → μ) (k : κ) : ∀ l : List (Sigma fun _ : κ => ν),
    (l.map fun e => (⟨e.1, f e.1 e.2⟩ : Sigma fun _ : κ => μ)).dlookup k = (l.dlookup k).map (f k)
  | [] => rfl
  | ⟨k', v⟩ :: l => by
    by_cases hk : k = k'
    · subst hk
      simp
    · have hμ := List.dlookup_cons_ne (β := fun _ => μ) (l.map fun e => ⟨e.1, f e.1 e.2⟩) ⟨k', f k' v⟩ hk
      have hν := List.dlookup_cons_ne (β := fun _ => ν) l ⟨k', v⟩ hk
      exact hμ.trans ((dlookup_map_values f k l).trans (congrArg _ hν.symm))

@[simp] theorem lookup_mapValues (f : κ → ν → μ) (m : HashMap κ ν) (k : κ) :
    (mapValues f m).lookup k = (m.lookup k).map (f k) :=
  dlookup_map_values f k m.entries

/-- The map with the value of `k`, if there is one, updated in place. -/
def modify (m : HashMap κ ν) (k : κ) (f : ν → ν) : HashMap κ ν :=
  mapValues (fun k' v => if k' = k then f v else v) m

@[simp] theorem lookup_modify (m : HashMap κ ν) (k k' : κ) (f : ν → ν) :
    (modify m k f).lookup k' = if k' = k then (m.lookup k').map f else m.lookup k' := by
  rw [modify, lookup_mapValues]
  split
  · rfl
  · exact Option.map_id'

/-- Updates of different keys commute. -/
theorem modify_comm {k k' : κ} (h : k ≠ k') (m : HashMap κ ν) (f g : ν → ν) :
    modify (modify m k f) k' g = modify (modify m k' g) k f := by
  refine AList.ext ?_
  show (m.entries.map _).map _ = (m.entries.map _).map _
  rw [List.map_map, List.map_map]
  refine List.map_congr_left fun e _ => ?_
  by_cases hk : e.1 = k
  · have hk' : e.1 ≠ k' := fun heq => h (hk.symm.trans heq)
    simp only [Function.comp_apply, if_pos hk, if_neg hk']
  · simp only [Function.comp_apply, if_neg hk]

/-- Insertion of pairs one after the other: a later pair overwrites an earlier one with its key. -/
def insertAll (m : HashMap κ ν) (l : List (κ × ν)) : HashMap κ ν :=
  l.foldl (fun m e => m.insert e.1 e.2) m

/-- The map collected from an iterator of pairs. -/
def collect (l : List (κ × ν)) : HashMap κ ν := insertAll ∅ l

@[simp] theorem insertAll_nil (m : HashMap κ ν) : insertAll m [] = m := rfl

@[simp] theorem insertAll_cons (m : HashMap κ ν) (e : κ × ν) (l : List (κ × ν)) :
    insertAll m (e :: l) = insertAll (m.insert e.1 e.2) l := rfl

theorem insertAll_append (m : HashMap κ ν) (l l' : List (κ × ν)) :
    insertAll m (l ++ l') = insertAll (insertAll m l) l' := List.foldl_append

theorem lookup_insertAll_of_notMem {l : List (κ × ν)} {k : κ} (h : k ∉ l.map Prod.fst) (m : HashMap κ ν) :
    (insertAll m l).lookup k = m.lookup k := by
  induction l generalizing m with
  | nil => rfl
  | cons e l ih =>
    simp only [List.map_cons, List.mem_cons, not_or] at h
    rw [insertAll_cons, ih h.2, AList.lookup_insert_ne h.1]

theorem lookup_insertAll_of_mem {l : List (κ × ν)} {k : κ} (h : k ∈ l.map Prod.fst) (m : HashMap κ ν) :
    ∃ v, (k, v) ∈ l ∧ (insertAll m l).lookup k = some v := by
  induction l generalizing m with
  | nil => cases h
  | cons e l ih =>
    by_cases hk : k ∈ l.map Prod.fst
    · obtain ⟨v, hv, hl⟩ := ih hk (m.insert e.1 e.2)
      exact ⟨v, List.mem_cons_of_mem _ hv, hl⟩
    · simp only [List.map_cons, List.mem_cons] at h
      obtain rfl := h.resolve_right hk
      refine ⟨e.2, List.mem_cons_self, ?_⟩
      rw [insertAll_cons, lookup_insertAll_of_notMem hk, AList.lookup_insert]

theorem mem_of_lookup_collect {l : List (κ × ν)} {k : κ} {v : ν} (h : (collect l).lookup k = some v) :
    (k, v) ∈ l := by
  by_cases hk : k ∈ l.map Prod.fst
  · obtain ⟨v', hv', hl⟩ := lookup_insertAll_of_mem hk ∅
    rw [collect, hl] at h
    cases h
    exact hv'
  · rw [collect, lookup_insertAll_of_notMem hk, AList.lookup_empty] at h
    cases h

theorem lookup_collect_isSome {l : List (κ × ν)} {k : κ} :
    ((collect l).lookup k).isSome ↔ k ∈ l.map Prod.fst := by
  constructor
  · intro h
    obtain ⟨v, hv⟩ := Option.isSome_iff_exists.mp h
    exact List.mem_map.mpr ⟨(k, v), mem_of_lookup_collect hv, rfl⟩
  · intro h
    obtain ⟨v, -, hl⟩ := lookup_insertAll_of_mem h ∅
    rw [collect, hl]
    rfl

/-- A map collected from the members of a list under their keys holds what one of them makes. -/
theorem exists_of_lookup_collect {α : Type} {key : α → κ} {value : α → ν} {l : List α} {k : κ} {v : ν}
    (h : (collect (l.map fun a => (key a, value a))).lookup k = some v) : ∃ a ∈ l, key a = k ∧ value a = v := by
  obtain ⟨a, ha, heq⟩ := List.mem_map.mp (mem_of_lookup_collect h)
  exact ⟨a, ha, Prod.mk.inj heq⟩

/-- It has a value for the key of each of them. -/
theorem exists_lookup_collect {α : Type} {l : List α} {a : α} (ha : a ∈ l) (key : α → κ) (value : α → ν) :
    ∃ v, (collect (l.map fun a => (key a, value a))).lookup (key a) = some v := by
  refine Option.isSome_iff_exists.mp (lookup_collect_isSome.mpr ?_)
  exact List.mem_map.mpr ⟨_, List.mem_map.mpr ⟨a, ha, rfl⟩, rfl⟩

/-- With distinct keys the order of the pairs does not matter: every pair is found. -/
theorem lookup_collect_of_nodup {l : List (κ × ν)} (hl : (l.map Prod.fst).Nodup) {k : κ} {v : ν}
    (h : (k, v) ∈ l) : (collect l).lookup k = some v := by
  obtain ⟨v', hv', hlk⟩ := lookup_insertAll_of_mem (List.mem_map.mpr ⟨(k, v), h, rfl⟩) (∅ : HashMap κ ν)
  rw [collect, hlk, (Prod.mk.inj (List.inj_on_of_nodup_map hl hv' h rfl)).2]

omit [DecidableEq κ] in
theorem entries_eq_nil_of_perm {m m' : HashMap κ ν} (h : m.entries.Perm m'.entries) :
    m.entries = [] ↔ m'.entries = [] := by
  rw [← List.length_eq_zero_iff, h.length_eq, List.length_eq_zero_iff]

/-- The pairs of a map in iteration order. -/
def pairs (m : HashMap κ ν) : List (κ × ν) := m.entries.map fun e => (e.1, e.2)

omit [DecidableEq κ] in
theorem pairs_keys (m : HashMap κ ν) : (pairs m).map Prod.fst = m.keys := by
  rw [pairs, List.map_map]
  rfl

omit [DecidableEq κ] in
theorem pairs_keys_nodup (m : HashMap κ ν) : ((pairs m).map Prod.fst).Nodup := by
  rw [pairs_keys]
  exact m.keys_nodup

theorem mem_pairs {m : HashMap κ ν} {k : κ} {v : ν} : (k, v) ∈ pairs m ↔ m.lookup k = some v := by
  rw [← Option.mem_def, AList.mem_lookup_iff, pairs, List.mem_map]
  constructor
  · rintro ⟨⟨k', v'⟩, he, heq⟩
    cases heq
    exact he
  · intro he
    exact ⟨⟨k, v⟩, he, rfl⟩

theorem lookup_collect_pairs (f : κ → ν → μ) (m : HashMap κ ν) (k : κ) :
    (collect ((pairs m).map fun e => (e.1, f e.1 e.2))).lookup k = (m.lookup k).map (f k) := by
  have hkeys : ((pairs m).map fun e => (e.1, f e.1 e.2)).map Prod.fst = (pairs m).map Prod.fst := by
    rw [List.map_map]
    rfl
  cases hk : m.lookup k with
  | none =>
    refine lookup_insertAll_of_notMem ?_ ∅
    rw [hkeys, pairs_keys]
    exact AList.lookup_eq_none.mp hk
  | some v =>
    refine lookup_collect_of_nodup ?_ (List.mem_map.mpr ⟨(k, v), mem_pairs.mpr hk, rfl⟩)
    rw [hkeys]
    exact pairs_keys_nodup m

theorem lookup_insertAll_pairs (f : κ → ν → μ) (base : HashMap κ μ) (m : HashMap κ ν) (k : κ) :
    (insertAll base ((pairs m).map fun e => (e.1, f e.1 e.2))).lookup k =
      ((m.lookup k).map (f k)).or (base.lookup k) := by
  have hkeys : ((pairs m).map fun e => (e.1, f e.1 e.2)).map Prod.fst = m.keys := by
    rw [List.map_map, ← pairs_keys]
    rfl
  cases hk : m.lookup k with
  | none =>
    rw [lookup_insertAll_of_notMem (hkeys ▸ AList.lookup_eq_none.mp hk)]
    rfl
  | some v =>
    have hmem : k ∈ ((pairs m).map fun e => (e.1, f e.1 e.2)).map Prod.fst := by
      rw [hkeys]
      exact AList.mem_keys.mp (AList.lookup_isSome.mp (hk ▸ rfl))
    obtain ⟨w, hw, hl⟩ := lookup_insertAll_of_mem hmem base
    obtain ⟨⟨k', v'⟩, he, heq⟩ := List.mem_map.mp hw
    cases heq
    rw [mem_pairs, hk] at he
    cases he
    exact hl

end HashMap
end Lib
