import Mathlib.Data.List.Basic
import Mathlib.Data.List.Induction

/-!
# Maps that keep the order of insertion

A map as the list of its entries, in order: `insert` replaces an entry in place or
appends it, `swapRemove` puts the last entry where the removed one was, `modifyAt`
changes a value where it is.

With distinct keys the entries after each operation are known up to their order:
`mem_insert`, `mem_swapRemove`, `mem_insertAll`, `mem_orInsert`. Without, they come from
the old entries and the new one (`of_mem_insert` and the like). A map filled from any
list of entries is known with its order: `keys_insertAll_nil`, `get?_insertAll`.
Lookups after insertions and removals: `get?_insert`, `get?_swapRemove`.
-/
namespace Core.IndexMap

variable {K V W : Type}

def Distinct (m : List (K × V)) : Prop := (m.map Prod.fst).Nodup

theorem Distinct.tail {e : K × V} {m : List (K × V)} (h : Distinct (e :: m)) : Distinct m :=
  (List.nodup_cons.mp h).2

theorem Distinct.ne_head {e x : K × V} {m : List (K × V)} (h : Distinct (e :: m)) (hx : x ∈ m) :
    x.1 ≠ e.1 := by
  intro hkey
  have hmem := List.mem_map_of_mem (f := Prod.fst) hx
  rw [hkey] at hmem
  exact (List.nodup_cons.mp h).1 hmem

theorem Distinct.map_values {m : List (K × V)} (h : Distinct m) (f : V → W) :
    Distinct (m.map fun e => (e.1, f e.2)) := by
  unfold Distinct at *
  rw [List.map_map]
  exact h

variable [DecidableEq K]

def get? (k : K) : List (K × V) → Option V
  | [] => none
  | e :: m => if e.1 = k then some e.2 else get? k m

def insert (k : K) (v : V) : List (K × V) → List (K × V)
  | [] => [(k, v)]
  | e :: m => if e.1 = k then (k, v) :: m else e :: insert k v m

def swapRemove (k : K) : List (K × V) → List (K × V)
  | [] => []
  | e :: m =>
    if e.1 = k then
      match m.getLast? with
      | some last => last :: m.dropLast
      | none => []
    else e :: swapRemove k m

/-- `entry(k).or_insert(v)`. -/
def orInsert (k : K) (v : V) (m : List (K × V)) : List (K × V) :=
  match get? k m with
  | some _ => m
  | none => insert k v m

/-- The value under a key changed in place. -/
def modifyAt (k : K) (f : V → V) : List (K × V) → List (K × V)
  | [] => []
  | e :: m => if e.1 = k then (e.1, f e.2) :: m else e :: modifyAt k f m

/-- Every entry of `other` inserted, in order. -/
def insertAll (other m : List (K × V)) : List (K × V) :=
  other.foldl (fun m e => insert e.1 e.2 m) m

/-! ## Lookup -/

theorem mem_of_get? {k : K} {v : V} {m : List (K × V)} (h : get? k m = some v) : (k, v) ∈ m := by
  induction m with
  | nil => cases h
  | cons e m ih =>
    unfold get? at h
    by_cases hk : e.1 = k
    · rw [if_pos hk] at h
      obtain rfl := Option.some.inj h
      rw [← hk]
      exact List.mem_cons_self
    · rw [if_neg hk] at h
      exact List.mem_cons_of_mem _ (ih h)

theorem get?_eq_none {k : K} {m : List (K × V)} : get? k m = none ↔ ∀ e ∈ m, e.1 ≠ k := by
  induction m with
  | nil => simp [get?]
  | cons e m ih =>
    by_cases hk : e.1 = k
    · simp [get?, hk]
    · simp [get?, hk, ih]

theorem get?_eq_some {k : K} {v : V} {m : List (K × V)} (h : Distinct m) :
    get? k m = some v ↔ (k, v) ∈ m := by
  constructor
  · exact mem_of_get?
  · intro hmem
    induction m with
    | nil => cases hmem
    | cons e m ih =>
      unfold get?
      rcases List.mem_cons.mp hmem with rfl | hmem
      · rw [if_pos rfl]
      · have hk : k ≠ e.1 := h.ne_head hmem
        rw [if_neg hk.symm]
        exact ih h.tail hmem

/-- A map of one entry, by its lookups. -/
theorem eq_singleton_iff {k : K} {v : V} {m : List (K × V)} (h : Distinct m) :
    m = [(k, v)] ↔ ∀ k', get? k' m = if k = k' then some v else none := by
  constructor
  · rintro rfl k'
    rfl
  · intro hget
    have hmem : (k, v) ∈ m := mem_of_get? (by rw [hget, if_pos rfl])
    have hall : ∀ e ∈ m, e = (k, v) := by
      intro e he
      have hkey := (get?_eq_some h).mpr he
      rw [hget] at hkey
      split at hkey
      · next heq =>
        obtain rfl := Option.some.inj hkey
        rw [heq]
      · cases hkey
    cases m with
    | nil => cases hmem
    | cons e m =>
      obtain rfl := hall e List.mem_cons_self
      cases m with
      | nil => rfl
      | cons e' m =>
        obtain rfl := hall e' (by simp)
        exact (h.ne_head (List.mem_cons_self) rfl).elim

theorem get?_map {k : K} (f : V → W) (m : List (K × V)) :
    get? k (m.map fun e => (e.1, f e.2)) = (get? k m).map f := by
  induction m with
  | nil => rfl
  | cons e m ih =>
    by_cases hk : e.1 = k
    · simp [get?, hk]
    · simp [get?, hk, ih]

/-! ## Insertion -/

theorem of_mem_insert {k : K} {v : V} {m : List (K × V)} {e : K × V} (h : e ∈ insert k v m) :
    e = (k, v) ∨ e ∈ m := by
  induction m with
  | nil => exact .inl (List.mem_singleton.mp h)
  | cons e' m ih =>
    unfold insert at h
    by_cases hk : e'.1 = k
    · rw [if_pos hk] at h
      rcases List.mem_cons.mp h with rfl | h
      · exact .inl rfl
      · exact .inr (List.mem_cons_of_mem _ h)
    · rw [if_neg hk] at h
      rcases List.mem_cons.mp h with rfl | h
      · exact .inr List.mem_cons_self
      · rcases ih h with rfl | h
        · exact .inl rfl
        · exact .inr (List.mem_cons_of_mem _ h)

theorem get?_insert (k k' : K) (v : V) (m : List (K × V)) :
    get? k' (insert k v m) = if k = k' then some v else get? k' m := by
  induction m with
  | nil => rfl
  | cons e m ih =>
    by_cases hk : e.1 = k
    · rw [insert, if_pos hk, get?, get?, hk]
      split
      · rfl
      · rfl
    · rw [insert, if_neg hk, get?, get?, ih]
      by_cases hk' : e.1 = k'
      · have hne : k ≠ k' := fun h => hk (hk'.trans h.symm)
        rw [if_pos hk', if_pos hk', if_neg hne]
      · rw [if_neg hk', if_neg hk']

theorem get?_orInsert (k k' : K) (v : V) (m : List (K × V)) :
    get? k' (orInsert k v m) = if k = k' then some ((get? k m).getD v) else get? k' m := by
  unfold orInsert
  cases hget : get? k m with
  | none => simp [get?_insert]
  | some x =>
    by_cases hk : k = k'
    · subst hk
      simp [hget]
    · simp [hk]

theorem mem_insert {k : K} {v : V} {m : List (K × V)} (h : Distinct m) {e : K × V} :
    e ∈ insert k v m ↔ e = (k, v) ∨ (e ∈ m ∧ e.1 ≠ k) := by
  induction m with
  | nil => simp [insert]
  | cons e' m ih =>
    unfold insert
    by_cases hk : e'.1 = k
    · have hother : ∀ x ∈ m, x.1 ≠ k := fun x hx => hk ▸ h.ne_head hx
      rw [if_pos hk, List.mem_cons]
      constructor
      · rintro (rfl | hmem)
        · exact .inl rfl
        · exact .inr ⟨List.mem_cons_of_mem _ hmem, hother e hmem⟩
      · rintro (rfl | ⟨hmem, hne⟩)
        · exact .inl rfl
        · rcases List.mem_cons.mp hmem with rfl | hmem
          · exact (hne hk).elim
          · exact .inr hmem
    · rw [if_neg hk, List.mem_cons, ih h.tail, List.mem_cons]
      constructor
      · rintro (rfl | rfl | ⟨hmem, hne⟩)
        · exact .inr ⟨.inl rfl, hk⟩
        · exact .inl rfl
        · exact .inr ⟨.inr hmem, hne⟩
      · rintro (rfl | ⟨rfl | hmem, hne⟩)
        · exact .inr (.inl rfl)
        · exact .inl rfl
        · exact .inr (.inr ⟨hmem, hne⟩)

theorem keys_insert (k : K) (v : V) (m : List (K × V)) :
    (insert k v m).map Prod.fst =
      if k ∈ m.map Prod.fst then m.map Prod.fst else m.map Prod.fst ++ [k] := by
  induction m with
  | nil => rfl
  | cons e m ih =>
    by_cases hk : e.1 = k
    · simp [insert, hk]
    · have hk' : k ≠ e.1 := fun h => hk h.symm
      simp only [insert, if_neg hk, List.map_cons, ih, List.mem_cons, hk', false_or]
      split
      · rfl
      · rfl

theorem distinct_insert {k : K} {v : V} {m : List (K × V)} (h : Distinct m) :
    Distinct (insert k v m) := by
  unfold Distinct at *
  rw [keys_insert]
  split
  · exact h
  · next hnot =>
    rw [List.nodup_append]
    refine ⟨h, List.pairwise_singleton _ k, ?_⟩
    intro a ha b hb
    rw [List.mem_singleton.mp hb]
    rintro rfl
    exact hnot ha

theorem distinct_orInsert {k : K} {v : V} {m : List (K × V)} (h : Distinct m) :
    Distinct (orInsert k v m) := by
  unfold orInsert
  cases get? k m with
  | some _ => exact h
  | none => exact distinct_insert h

theorem of_mem_orInsert {k : K} {v : V} {m : List (K × V)} {e : K × V}
    (h : e ∈ orInsert k v m) : e = (k, v) ∨ e ∈ m := by
  unfold orInsert at h
  cases hget : get? k m with
  | some _ =>
    rw [hget] at h
    exact .inr h
  | none =>
    rw [hget] at h
    exact of_mem_insert h

/-! ## Removal -/

theorem of_mem_swapRemove {k : K} {m : List (K × V)} {e : K × V} (h : e ∈ swapRemove k m) :
    e ∈ m := by
  induction m with
  | nil => cases h
  | cons e' m ih =>
    unfold swapRemove at h
    by_cases hk : e'.1 = k
    · rw [if_pos hk] at h
      cases hlast : m.getLast? with
      | none => simp [hlast] at h
      | some last =>
        simp only [hlast] at h
        rcases List.mem_cons.mp h with rfl | h
        · exact List.mem_cons_of_mem _ (List.mem_of_getLast? hlast)
        · exact List.mem_cons_of_mem _ (List.dropLast_subset m h)
    · rw [if_neg hk] at h
      rcases List.mem_cons.mp h with rfl | h
      · exact List.mem_cons_self
      · exact List.mem_cons_of_mem _ (ih h)

/-- Up to order, the entry is erased. -/
theorem swapRemove_perm (k : K) (m : List (K × V)) :
    (swapRemove k m).Perm (m.eraseP fun e => e.1 = k) := by
  induction m with
  | nil => exact .refl _
  | cons e m ih =>
    unfold swapRemove
    by_cases hk : e.1 = k
    · rw [if_pos hk, List.eraseP_cons_of_pos (by simpa using hk)]
      cases hlast : m.getLast? with
      | none =>
        rw [List.getLast?_eq_none_iff.mp hlast]
      | some last =>
        have hsplit : m.dropLast ++ [last] = m := by
          obtain ⟨hne, hget⟩ := List.getLast?_eq_some_iff.mp hlast
          subst hget
          simp
        exact ((List.perm_append_singleton last m.dropLast).symm.trans (.of_eq hsplit))
    · rw [if_neg hk, List.eraseP_cons_of_neg (by simpa using hk)]
      exact ih.cons e

theorem mem_swapRemove {k : K} {m : List (K × V)} (h : Distinct m) {e : K × V} :
    e ∈ swapRemove k m ↔ e ∈ m ∧ e.1 ≠ k := by
  rw [(swapRemove_perm k m).mem_iff]
  induction m with
  | nil => simp
  | cons e' m ih =>
    by_cases hk : e'.1 = k
    · have hother : ∀ x ∈ m, x.1 ≠ k := fun x hx => hk ▸ h.ne_head hx
      rw [List.eraseP_cons_of_pos (by simpa using hk), List.mem_cons]
      constructor
      · intro hmem
        exact ⟨.inr hmem, hother e hmem⟩
      · rintro ⟨rfl | hmem, hne⟩
        · exact (hne hk).elim
        · exact hmem
    · rw [List.eraseP_cons_of_neg (by simpa using hk), List.mem_cons, List.mem_cons, ih h.tail]
      constructor
      · rintro (rfl | ⟨hmem, hne⟩)
        · exact ⟨.inl rfl, hk⟩
        · exact ⟨.inr hmem, hne⟩
      · rintro ⟨rfl | hmem, hne⟩
        · exact .inl rfl
        · exact .inr ⟨hmem, hne⟩

theorem distinct_swapRemove {k : K} {m : List (K × V)} (h : Distinct m) :
    Distinct (swapRemove k m) := by
  have hperm := (swapRemove_perm k m).map Prod.fst
  unfold Distinct at *
  rw [hperm.nodup_iff]
  exact h.sublist ((List.eraseP_sublist).map Prod.fst)

theorem get?_swapRemove {m : List (K × V)} (h : Distinct m) (k k' : K) :
    get? k' (swapRemove k m) = if k = k' then none else get? k' m := by
  by_cases hk : k = k'
  · subst hk
    rw [if_pos rfl, get?_eq_none]
    exact fun e he => ((mem_swapRemove h).mp he).2
  · rw [if_neg hk]
    cases hget : get? k' m with
    | none =>
      rw [get?_eq_none] at *
      exact fun e he => hget e (of_mem_swapRemove he)
    | some x =>
      rw [get?_eq_some (distinct_swapRemove h), mem_swapRemove h]
      exact ⟨mem_of_get? hget, fun hkey => hk hkey.symm⟩

/-! ## Change in place -/

theorem get?_modifyAt (k k' : K) (f : V → V) (m : List (K × V)) :
    get? k' (modifyAt k f m) = if k = k' then (get? k' m).map f else get? k' m := by
  induction m with
  | nil => simp [modifyAt, get?]
  | cons e m ih =>
    by_cases hk : e.1 = k
    · rw [modifyAt, if_pos hk, get?, get?, hk]
      split
      · rfl
      · rfl
    · rw [modifyAt, if_neg hk, get?, get?, ih]
      by_cases hk' : e.1 = k'
      · have hne : k ≠ k' := fun h => hk (hk'.trans h.symm)
        rw [if_pos hk', if_neg hne, if_pos hk']
      · rw [if_neg hk', if_neg hk']

theorem keys_modifyAt (k : K) (f : V → V) (m : List (K × V)) :
    (modifyAt k f m).map Prod.fst = m.map Prod.fst := by
  induction m with
  | nil => rfl
  | cons e m ih =>
    unfold modifyAt
    split
    · rfl
    · simp [ih]

theorem of_mem_modifyAt {k : K} {f : V → V} {m : List (K × V)} {e : K × V}
    (h : e ∈ modifyAt k f m) : e ∈ m ∨ ∃ v, (k, v) ∈ m ∧ e = (k, f v) := by
  induction m with
  | nil => cases h
  | cons e' m ih =>
    unfold modifyAt at h
    split at h
    · next hk =>
      rcases List.mem_cons.mp h with rfl | h
      · exact .inr ⟨e'.2, by simp [← hk], by rw [hk]⟩
      · exact .inl (List.mem_cons_of_mem _ h)
    · rcases List.mem_cons.mp h with rfl | h
      · exact .inl List.mem_cons_self
      · rcases ih h with h | ⟨v, hv, rfl⟩
        · exact .inl (List.mem_cons_of_mem _ h)
        · exact .inr ⟨v, List.mem_cons_of_mem _ hv, rfl⟩

theorem modifyAt_eq_self {k : K} {f : V → V} {m : List (K × V)}
    (h : ∀ v, get? k m = some v → f v = v) : modifyAt k f m = m := by
  induction m with
  | nil => rfl
  | cons e m ih =>
    unfold modifyAt
    by_cases hk : e.1 = k
    · rw [if_pos hk, h e.2 (by rw [get?, if_pos hk])]
    · rw [if_neg hk, ih fun v hv => h v (by rw [get?, if_neg hk, hv])]

/-! ## Several entries -/

theorem of_mem_insertAll {other m : List (K × V)} {e : K × V} (h : e ∈ insertAll other m) :
    e ∈ other ∨ e ∈ m := by
  induction other generalizing m with
  | nil => exact .inr h
  | cons o other ih =>
    rcases ih h with hmem | hmem
    · exact .inl (List.mem_cons_of_mem _ hmem)
    · rcases of_mem_insert hmem with rfl | hmem
      · exact .inl List.mem_cons_self
      · exact .inr hmem

theorem distinct_insertAll {other m : List (K × V)} (h : Distinct m) :
    Distinct (insertAll other m) := by
  induction other generalizing m with
  | nil => exact h
  | cons o other ih => exact ih (distinct_insert h)

theorem mem_insertAll {other m : List (K × V)} (hother : Distinct other) (h : Distinct m)
    {e : K × V} : e ∈ insertAll other m ↔ e ∈ other ∨ (e ∈ m ∧ ∀ o ∈ other, o.1 ≠ e.1) := by
  induction other generalizing m with
  | nil => simp [insertAll]
  | cons o other ih =>
    have hstep : insertAll (o :: other) m = insertAll other (insert o.1 o.2 m) := rfl
    have hfresh : ∀ x ∈ other, x.1 ≠ o.1 := fun x hx => hother.ne_head hx
    rw [hstep, ih hother.tail (distinct_insert h), mem_insert h]
    constructor
    · rintro (hmem | ⟨rfl | ⟨hmem, hne⟩, hkeys⟩)
      · exact .inl (List.mem_cons_of_mem _ hmem)
      · exact .inl List.mem_cons_self
      · refine .inr ⟨hmem, ?_⟩
        intro x hx
        rcases List.mem_cons.mp hx with rfl | hx
        · exact hne.symm
        · exact hkeys x hx
    · rintro (hmem | ⟨hmem, hkeys⟩)
      · rcases List.mem_cons.mp hmem with rfl | hmem
        · exact .inr ⟨.inl rfl, hfresh⟩
        · exact .inl hmem
      · refine .inr ⟨.inr ⟨hmem, (hkeys o List.mem_cons_self).symm⟩, ?_⟩
        intro x hx
        exact hkeys x (List.mem_cons_of_mem _ hx)

/-- A key has the value it was last given. -/
theorem get?_insertAll (k : K) (other m : List (K × V)) :
    get? k (insertAll other m) =
      ((other.filter fun e => e.1 = k).map Prod.snd).getLast?.or (get? k m) := by
  induction other generalizing m with
  | nil => rfl
  | cons o other ih =>
    have hstep : insertAll (o :: other) m = insertAll other (insert o.1 o.2 m) := rfl
    rw [hstep, ih, get?_insert]
    by_cases hk : o.1 = k
    · simp only [hk, List.filter_cons, decide_true, if_true, List.map_cons, List.getLast?_cons]
      cases ((other.filter fun e => e.1 = k).map Prod.snd).getLast? with
      | none => rfl
      | some v => rfl
    · simp only [hk, List.filter_cons, decide_false, if_false, Bool.false_eq_true]

theorem get?_insertAll_of_distinct {other : List (K × V)} (h : Distinct other) (k : K)
    (m : List (K × V)) : get? k (insertAll other m) = (get? k other).or (get? k m) := by
  induction other generalizing m with
  | nil => rfl
  | cons o other ih =>
    have hstep : insertAll (o :: other) m = insertAll other (insert o.1 o.2 m) := rfl
    rw [hstep, ih h.tail, get?_insert, get?]
    by_cases hk : o.1 = k
    · have hfresh : get? k other = none :=
        get?_eq_none.mpr fun e he => hk ▸ h.ne_head he
      simp [hk, hfresh]
    · simp [hk]

/-- The keys are in the order in which they first came. -/
theorem keys_insertAll_nil (other : List (K × V)) :
    (insertAll other []).map Prod.fst = (other.map Prod.fst).eraseDups := by
  induction other using List.reverseRecOn with
  | nil => rfl
  | append_singleton other o ih =>
    have hstep : insertAll (other ++ [o]) [] = insert o.1 o.2 (insertAll other []) := by
      simp [insertAll, List.foldl_append]
    rw [hstep, keys_insert, ih, List.map_append, List.eraseDups_append]
    by_cases hk : o.1 ∈ other.map Prod.fst
    · simp [List.removeAll, hk]
    · simp [List.removeAll, hk, List.eraseDups_cons]

end Core.IndexMap
