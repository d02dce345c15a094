import Mathlib.Data.List.Sort

/-!
# A min-heap by its observable behaviour

`MinHeap key` is a priority queue whose smallest entry, in the order of
`key : α → κ`, comes out first. It is kept as the list of its entries in key
order, so `peek?` is the head; the shape of the tree behind a binary heap is not
observable and not modelled.

* `push_perm`, `pop_entries`: entries are neither lost nor duplicated.
* `pop_le`: what `pop?` returns is at most every entry of the heap.
* `push_last`: an entry above all others goes to the end, so a heap that is only
  ever pushed in key order is a FIFO queue.
-/
namespace Core

/-- The order of the entries: by key, ties in any order. -/
def ByKey {α κ : Type} [LinearOrder κ] (key : α → κ) (a b : α) : Prop := key a ≤ key b

section
variable {α κ : Type} [LinearOrder κ] (key : α → κ)

instance : DecidableRel (ByKey key) := fun a b => inferInstanceAs (Decidable (key a ≤ key b))

instance : IsTrans α (ByKey key) := ⟨fun _ _ _ h h' => le_trans (α := κ) h h'⟩

instance : Std.Total (ByKey key) := ⟨fun a b => le_total (key a) (key b)⟩

end

structure MinHeap {α κ : Type} [LinearOrder κ] (key : α → κ) where
  entries : List α
  sorted : entries.Pairwise (ByKey key)

namespace MinHeap

variable {α κ : Type} [LinearOrder κ] {key : α → κ}

def empty : MinHeap key := ⟨[], .nil⟩

def size (h : MinHeap key) : Nat := h.entries.length

def peek? (h : MinHeap key) : Option α := h.entries.head?

def push (h : MinHeap key) (a : α) : MinHeap key :=
  ⟨h.entries.orderedInsert (ByKey key) a, h.sorted.orderedInsert a⟩

def pop? : MinHeap key → Option (α × MinHeap key)
  | ⟨[], _⟩ => none
  | ⟨a :: l, hs⟩ => some (a, ⟨l, (List.pairwise_cons.1 hs).2⟩)

@[simp] theorem empty_entries : (empty : MinHeap key).entries = [] := rfl

theorem push_perm (h : MinHeap key) (a : α) : (h.push a).entries.Perm (a :: h.entries) :=
  List.perm_orderedInsert _ a h.entries

@[simp] theorem mem_push {h : MinHeap key} {a b : α} :
    b ∈ (h.push a).entries ↔ b = a ∨ b ∈ h.entries := List.mem_orderedInsert _

theorem pop_entries {h h' : MinHeap key} {a : α} (hp : h.pop? = some (a, h')) :
    h.entries = a :: h'.entries := by
  obtain ⟨l, hs⟩ := h
  cases l with
  | nil => cases hp
  | cons b l => cases hp; rfl

/-- What comes out is at most every entry of the heap, itself included. -/
theorem pop_le {h h' : MinHeap key} {a : α} (hp : h.pop? = some (a, h')) :
    ∀ b ∈ h.entries, key a ≤ key b := by
  intro b hb
  have hs := h.sorted
  rw [pop_entries hp] at hb hs
  rcases List.mem_cons.1 hb with rfl | hb
  · exact le_refl _
  · exact (List.pairwise_cons.1 hs).1 b hb

/-- An entry above all others is pushed at the end. -/
theorem push_last {h : MinHeap key} {a : α} (hl : ∀ b ∈ h.entries, key b < key a) :
    (h.push a).entries = h.entries ++ [a] := by
  show h.entries.orderedInsert (ByKey key) a = h.entries ++ [a]
  generalize h.entries = l at hl ⊢
  induction l with
  | nil => rfl
  | cons b l ih =>
    have hb : ¬ByKey key a b := not_le.2 (hl b List.mem_cons_self)
    rw [List.orderedInsert_of_not_le _ l hb, ih fun x hx => hl x (List.mem_cons_of_mem _ hx)]
    rfl

end MinHeap

end Core
