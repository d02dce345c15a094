import Mathlib.Data.List.AList
import Mathlib.Data.List.Induction

/-!
# Keyed tables

`Table κ α` is an association list without repeated keys: the model of a hash
map whose iteration order nothing depends on. Over the operations of `AList` it
adds what a bounded table needs: lookup after every operation as an `if` on the
key, and the change of the size. `ofEntries` collects entries one after the other; a key
has the value it was given last (`lookup_ofEntries_append`).
-/
namespace Core

abbrev Table (κ α : Type) := AList fun _ : κ => α

namespace Table

variable {κ α : Type}

def size (t : Table κ α) : Nat := t.keys.length

variable [DecidableEq κ]

theorem lookup_erase_ite (t : Table κ α) (k k' : κ) :
    (t.erase k).lookup k' = if k' = k then none else t.lookup k' := by
  split
  · rename_i h; rw [h]; exact AList.lookup_erase k t
  · rename_i h; exact AList.lookup_erase_ne h

theorem lookup_insert_ite (t : Table κ α) (k k' : κ) (a : α) :
    (t.insert k a).lookup k' = if k' = k then some a else t.lookup k' := by
  split
  · rename_i h; rw [h]; exact AList.lookup_insert t
  · rename_i h; exact AList.lookup_insert_ne h

/-- Entries inserted from the first to the last. -/
def ofEntries (l : List (κ × α)) : Table κ α := l.foldl (fun t e => t.insert e.1 e.2) ∅

theorem ofEntries_concat (l : List (κ × α)) (k : κ) (a : α) :
    ofEntries (l ++ [(k, a)]) = (ofEntries l).insert k a := by
  unfold ofEntries
  rw [List.foldl_append]
  rfl

theorem lookup_ofEntries_append (l m : List (κ × α)) (k : κ) :
    (ofEntries (l ++ m)).lookup k = ((ofEntries m).lookup k).or ((ofEntries l).lookup k) := by
  induction m using List.reverseRecOn with
  | nil => rw [List.append_nil]; rfl
  | append_singleton m e ih =>
    rw [← List.append_assoc, ofEntries_concat, ofEntries_concat, lookup_insert_ite,
      lookup_insert_ite, ih]
    split
    · rfl
    · rfl

theorem mem_of_lookup {t : Table κ α} {k : κ} {a : α} (h : t.lookup k = some a) : k ∈ t :=
  AList.lookup_isSome.1 (by rw [h]; rfl)

/-! ## Size -/

theorem size_erase_le (t : Table κ α) (k : κ) : size (t.erase k) ≤ t.size := by
  rw [size, AList.keys_erase]; exact List.length_erase_le

theorem size_erase_of_mem {t : Table κ α} {k : κ} (h : k ∈ t) : size (t.erase k) + 1 = t.size := by
  rw [size, AList.keys_erase, size]
  exact List.length_erase_add_one h

theorem size_insert_of_mem {t : Table κ α} {k : κ} (h : k ∈ t) (a : α) :
    size (t.insert k a) = t.size := by
  rw [size, AList.keys_insert, List.length_cons]
  exact List.length_erase_add_one h

theorem size_insert_of_notMem {t : Table κ α} {k : κ} (h : k ∉ t) (a : α) :
    size (t.insert k a) = t.size + 1 := by
  rw [size, AList.keys_insert, List.length_cons, List.erase_of_not_mem h]
  rfl

theorem size_insert_le (t : Table κ α) (k : κ) (a : α) : size (t.insert k a) ≤ t.size + 1 := by
  rw [size, AList.keys_insert, List.length_cons]
  exact Nat.succ_le_succ List.length_erase_le

end Table

end Core
