set_option autoImplicit false

/-! Finite maps as lists of bindings. Inserting a key replaces what was bound to
it, so a table made from the empty one by these operations binds each key at most
once. -/

namespace Handshake

structure Table (κ α : Type) where
  bindings : List (κ × α)

namespace Table

variable {κ α : Type} [DecidableEq κ]

def empty : Table κ α := ⟨[]⟩

def keys (table : Table κ α) : List κ := table.bindings.map Prod.fst

def size (table : Table κ α) : Nat := table.bindings.length

def get? (table : Table κ α) (key : κ) : Option α :=
  (table.bindings.find? (fun binding => binding.1 = key)).map Prod.snd

def contains (table : Table κ α) (key : κ) : Bool := (table.get? key).isSome

def erase (table : Table κ α) (key : κ) : Table κ α :=
  ⟨table.bindings.filter (fun binding => binding.1 ≠ key)⟩

def insert (table : Table κ α) (key : κ) (value : α) : Table κ α :=
  ⟨(key, value) :: (table.erase key).bindings⟩

/-- Binds a key that is not bound yet, and leaves one that is. -/
def insertNew (table : Table κ α) (key : κ) (value : α) : Table κ α :=
  if table.contains key then table else table.insert key value

theorem get?_insert_self (table : Table κ α) (key : κ) (value : α) :
    (table.insert key value).get? key = some value := by
  simp [get?, insert]

theorem get?_erase_self (table : Table κ α) (key : κ) : (table.erase key).get? key = none := by
  simp [get?, erase, List.find?_eq_none]

theorem get?_erase_of_ne (table : Table κ α) {key other : κ} (different : other ≠ key) :
    (table.erase key).get? other = table.get? other := by
  simp only [get?, erase, List.find?_filter]
  congr 2
  funext binding
  by_cases same : binding.1 = other
  · simp [same, different]
  · simp [same]

theorem get?_insert_of_ne (table : Table κ α) {key other : κ} (value : α)
    (different : other ≠ key) : (table.insert key value).get? other = table.get? other := by
  rw [← table.get?_erase_of_ne different]
  simp [get?, insert, different.symm]

theorem getD_insertNew (table : Table κ α) (key other : κ) (value : α) :
    ((table.insertNew key value).get? other).getD value = (table.get? other).getD value := by
  unfold insertNew contains
  cases bound : table.get? key with
  | some old => rfl
  | none =>
      by_cases same : other = key
      · subst same
        simp [get?_insert_self, bound]
      · simp [get?_insert_of_ne table value same]

end Table

end Handshake
