import Mathlib.Data.List.Basic

/-!
# Records decoded from keyed entries

A record whose fields are indexed by a type of keys (`Fields`), and the decoder a
derived deserializer is: every entry names a field, its value is read at the
field's type and stored.

* `decode_ok_iff`: it succeeds exactly when every entry names a field and can be read.
* `decode_get_mem`, `decode_get_absent`: with distinct names, a field holds what its
  entry was read as, and the value it had before when no entry names it.
-/
namespace Core

structure Fields (K R : Type) (T : K → Type) where
  get : R → (k : K) → T k
  set : R → (k : K) → T k → R
  get_set_self : ∀ r k x, get (set r k x) k = x
  get_set_other : ∀ r k x k', k' ≠ k → get (set r k x) k' = get r k'

namespace Fields

variable {K R N V ε : Type} {T : K → Type} (fields : Fields K R T) (key : N → Option K)
  (read : (k : K) → V → Except ε (T k)) (unknown : N → ε)

def decode (r : R) : List (N × V) → Except ε R
  | [] => .ok r
  | (n, v) :: es =>
    match key n with
    | none => .error (unknown n)
    | some k =>
      match read k v with
      | .error e => .error e
      | .ok x => decode (fields.set r k x) es

/-- The entry names a field and its value can be read there. -/
def Readable (e : N × V) : Prop := ∃ k x, key e.1 = some k ∧ read k e.2 = .ok x

theorem decode_cons_ok {r r' : R} {n : N} {v : V} {es : List (N × V)}
    (h : fields.decode key read unknown r ((n, v) :: es) = .ok r') :
    ∃ k x, key n = some k ∧ read k v = .ok x ∧
      fields.decode key read unknown (fields.set r k x) es = .ok r' := by
  simp only [decode] at h
  cases hk : key n with
  | none => simp [hk] at h
  | some k =>
    cases hx : read k v with
    | error e => simp [hk, hx] at h
    | ok x =>
      simp only [hk, hx] at h
      exact ⟨k, x, rfl, hx, h⟩

theorem decode_ok_iff (r : R) (es : List (N × V)) :
    (∃ r', fields.decode key read unknown r es = .ok r') ↔ ∀ e ∈ es, Readable key read e := by
  induction es generalizing r with
  | nil => simp [decode]
  | cons e es ih =>
    obtain ⟨n, v⟩ := e
    constructor
    · intro h
      obtain ⟨r', h⟩ := h
      obtain ⟨k, x, hk, hx, hrest⟩ := fields.decode_cons_ok key read unknown h
      intro e he
      cases he with
      | head => exact ⟨k, x, hk, hx⟩
      | tail _ he => exact (ih _).1 ⟨r', hrest⟩ e he
    · intro h
      obtain ⟨k, x, hk, hx⟩ := h (n, v) List.mem_cons_self
      obtain ⟨r', hr'⟩ := (ih (fields.set r k x)).2 fun e he => h e (List.mem_cons_of_mem _ he)
      refine ⟨r', ?_⟩
      simp only at hk hx
      simp only [decode, hk, hx]
      exact hr'

/-- A field that no entry names is left alone. -/
theorem decode_get_absent {r r' : R} {es : List (N × V)} {k : K}
    (h : fields.decode key read unknown r es = .ok r') (hk : ∀ e ∈ es, key e.1 ≠ some k) :
    fields.get r' k = fields.get r k := by
  induction es generalizing r with
  | nil => cases h; rfl
  | cons e es ih =>
    obtain ⟨n, v⟩ := e
    obtain ⟨k', x, hk', -, hrest⟩ := fields.decode_cons_ok key read unknown h
    have hne : k ≠ k' := by
      intro heq
      exact hk (n, v) List.mem_cons_self (heq ▸ hk')
    rw [ih hrest fun e he => hk e (List.mem_cons_of_mem _ he)]
    exact fields.get_set_other _ _ _ _ hne

/-- A named field holds what its entry was read as. -/
theorem decode_get_mem {r r' : R} {es : List (N × V)} {n : N} {v : V} {k : K}
    (hinj : ∀ n n', key n = some k → key n' = some k → n = n')
    (hnd : (es.map Prod.fst).Nodup) (h : fields.decode key read unknown r es = .ok r')
    (hmem : (n, v) ∈ es) (hk : key n = some k) : read k v = .ok (fields.get r' k) := by
  induction es generalizing r with
  | nil => cases hmem
  | cons e es ih =>
    obtain ⟨m, w⟩ := e
    simp only [List.map_cons, List.nodup_cons] at hnd
    obtain ⟨k', x, hk', hx, hrest⟩ := fields.decode_cons_ok key read unknown h
    cases hmem with
    | tail _ hmem => exact ih hnd.2 hrest hmem
    | head =>
      rw [hk] at hk'
      cases hk'
      -- no later entry names the field again
      have habsent : ∀ e ∈ es, key e.1 ≠ some k := by
        intro e he hke
        have hfst := hinj _ _ hk hke
        exact hnd.1 (hfst ▸ List.mem_map_of_mem he)
      rw [hx, fields.decode_get_absent key read unknown hrest habsent, fields.get_set_self]

end Fields

end Core
