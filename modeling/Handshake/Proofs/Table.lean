import Mathlib.Data.List.Basic
import Mathlib.Data.List.Nodup
import Mathlib.Data.List.Perm.Basic
import Handshake.Table
set_option autoImplicit false

/-! Laws of tables. A table whose keys are pairwise different is a finite map: look-up
and membership agree, and taking out a key takes out exactly its value. -/

namespace Handshake.Table

variable {κ α : Type} [DecidableEq κ]

def values (table : Table κ α) : List α := table.bindings.map Prod.snd

theorem keys_erase (table : Table κ α) (key : κ) :
    (table.erase key).keys = table.keys.filter (fun other => other ≠ key) := by
  simp only [keys, erase, List.filter_map]
  rfl

theorem keys_insert (table : Table κ α) (key : κ) (value : α) :
    (table.insert key value).keys = key :: table.keys.filter (fun other => other ≠ key) := by
  rw [← keys_erase]
  rfl

theorem keys_erase_nodup {table : Table κ α} (distinct : table.keys.Nodup) (key : κ) :
    (table.erase key).keys.Nodup := by
  rw [keys_erase]
  exact distinct.filter _

theorem keys_insert_nodup {table : Table κ α} (distinct : table.keys.Nodup) (key : κ)
    (value : α) : (table.insert key value).keys.Nodup := by
  rw [keys_insert, List.nodup_cons]
  exact ⟨by simp, distinct.filter _⟩

/-! ### Look-up and membership -/

theorem mem_bindings_of_get? {table : Table κ α} {key : κ} {value : α}
    (found : table.get? key = some value) : (key, value) ∈ table.bindings := by
  obtain ⟨binding, atKey, same⟩ := Option.map_eq_some_iff.mp found
  have member := List.mem_of_find?_eq_some atKey
  have keyEq : binding.1 = key := by simpa using List.find?_some atKey
  rw [← keyEq, ← same]
  exact member

theorem contains_iff_mem_keys {table : Table κ α} {key : κ} :
    table.contains key = true ↔ key ∈ table.keys := by
  simp [contains, get?, keys]

theorem get?_eq_none_iff {table : Table κ α} {key : κ} :
    table.get? key = none ↔ key ∉ table.keys := by
  rw [← contains_iff_mem_keys, contains]
  cases table.get? key <;> simp

theorem mem_keys_of_get? {table : Table κ α} {key : κ} {value : α}
    (found : table.get? key = some value) : key ∈ table.keys :=
  List.mem_map.mpr ⟨(key, value), mem_bindings_of_get? found, rfl⟩

theorem mem_values_of_get? {table : Table κ α} {key : κ} {value : α}
    (found : table.get? key = some value) : value ∈ table.values :=
  List.mem_map.mpr ⟨(key, value), mem_bindings_of_get? found, rfl⟩

theorem get?_insert (table : Table κ α) (key other : κ) (value : α) :
    (table.insert key value).get? other = if other = key then some value else table.get? other := by
  by_cases same : other = key
  · rw [if_pos same, same, get?_insert_self]
  · rw [if_neg same, get?_insert_of_ne table value same]

theorem get?_erase (table : Table κ α) (key other : κ) :
    (table.erase key).get? other = if other = key then none else table.get? other := by
  by_cases same : other = key
  · rw [if_pos same, same, get?_erase_self]
  · rw [if_neg same, get?_erase_of_ne table same]

/-! ### Taking out and putting in -/

private theorem filter_absent {bindings : List (κ × α)} {key : κ}
    (absent : key ∉ bindings.map Prod.fst) :
    bindings.filter (fun binding => binding.1 ≠ key) = bindings := by
  refine List.filter_eq_self.mpr (fun binding member => ?_)
  have different : binding.1 ≠ key := fun same =>
    absent (List.mem_map.mpr ⟨binding, member, same⟩)
  simpa using different

theorem erase_of_not_mem {table : Table κ α} {key : κ} (absent : key ∉ table.keys) :
    table.erase key = table := by
  have kept := filter_absent absent
  cases table
  simp only [erase, kept]

theorem insert_bindings_of_not_mem {table : Table κ α} {key : κ} (absent : key ∉ table.keys)
    (value : α) : (table.insert key value).bindings = (key, value) :: table.bindings := by
  simp only [insert, erase_of_not_mem absent]

theorem erase_bindings_perm {table : Table κ α} {key : κ} {value : α}
    (distinct : table.keys.Nodup) (found : table.get? key = some value) :
    table.bindings.Perm ((key, value) :: (table.erase key).bindings) := by
  obtain ⟨before, after, split⟩ := List.append_of_mem (mem_bindings_of_get? found)
  have unique := distinct
  simp only [keys, split, List.map_append, List.map_cons, List.nodup_append, List.nodup_cons]
    at unique
  obtain ⟨-, ⟨notAfter, -⟩, apart⟩ := unique
  have notBefore : key ∉ before.map Prod.fst := fun member =>
    apart key member key List.mem_cons_self rfl
  have erased : (table.erase key).bindings = before ++ after := by
    simp only [erase, split, List.filter_append, List.filter_cons, filter_absent notBefore,
      filter_absent notAfter]
    simp
  rw [erased, split]
  exact List.perm_middle

theorem keys_perm_of_get? {table : Table κ α} {key : κ} {value : α}
    (distinct : table.keys.Nodup) (found : table.get? key = some value) :
    table.keys.Perm (key :: (table.erase key).keys) :=
  (erase_bindings_perm distinct found).map Prod.fst

theorem values_perm_of_get? {table : Table κ α} {key : κ} {value : α}
    (distinct : table.keys.Nodup) (found : table.get? key = some value) :
    table.values.Perm (value :: (table.erase key).values) :=
  (erase_bindings_perm distinct found).map Prod.snd

theorem size_erase_of_get? {table : Table κ α} {key : κ} {value : α}
    (distinct : table.keys.Nodup) (found : table.get? key = some value) :
    table.size = (table.erase key).size + 1 :=
  (erase_bindings_perm distinct found).length_eq

theorem keys_insert_perm_of_mem {table : Table κ α} {key : κ} (distinct : table.keys.Nodup)
    (member : key ∈ table.keys) (value : α) :
    (table.insert key value).keys.Perm table.keys := by
  refine (List.perm_ext_iff_of_nodup (keys_insert_nodup distinct key value) distinct).mpr ?_
  intro other
  rw [keys_insert, List.mem_cons, List.mem_filter]
  by_cases same : other = key
  · simp [same, member]
  · simp [same]

end Handshake.Table
