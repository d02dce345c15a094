import Mathlib.Data.List.Infix

/-!
# Regular expressions with leftmost-first matching

`attempts r s` is what is left of `s` after each match of `r` at its start, the
preferred match first: alternatives in order, repetitions greedy. `Lang` is the
language of the expression, which the order does not matter to.

* `mem_attempts`: the attempts are the words of the language.
* `replace_of_first`: the match that is replaced is the preferred one at the
  first position that has any.
* `matchAt_between`: a bounded repetition takes all it can.
-/
namespace Core

inductive Regex (α : Type) where
  | empty
  | one (p : α → Bool)
  | seq (a b : Regex α)
  | alt (a b : Regex α)

namespace Regex

variable {α : Type}

/-- The word itself. -/
def word [BEq α] : List α → Regex α
  | [] => empty
  | a :: w => seq (one (· == a)) (word w)

def exactly (r : Regex α) : Nat → Regex α
  | 0 => empty
  | n + 1 => seq r (exactly r n)

def atMost (r : Regex α) : Nat → Regex α
  | 0 => empty
  | n + 1 => alt (seq r (atMost r n)) empty

/-- `r{m,n}`. -/
def between (r : Regex α) (m n : Nat) : Regex α := seq (exactly r m) (atMost r (n - m))

def attempts : Regex α → List α → List (List α)
  | empty, s => [s]
  | one p, s =>
    match s with
    | [] => []
    | a :: s => if p a then [s] else []
  | seq a b, s => (attempts a s).flatMap (attempts b)
  | alt a b, s => attempts a s ++ attempts b s

/-- What is left after the preferred match at the start. -/
def matchAt (r : Regex α) (s : List α) : Option (List α) := (attempts r s).head?

/-- The first match replaced by `text`. -/
def replace (r : Regex α) (text : List α) : List α → List α
  | [] =>
    match matchAt r [] with
    | some rest => text ++ rest
    | none => []
  | a :: s =>
    match matchAt r (a :: s) with
    | some rest => text ++ rest
    | none => a :: replace r text s

/-! ## The language -/

def Lang : Regex α → List α → Prop
  | empty, w => w = []
  | one p, w => ∃ a, p a = true ∧ w = [a]
  | seq a b, w => ∃ u v, Lang a u ∧ Lang b v ∧ w = u ++ v
  | alt a b, w => Lang a w ∨ Lang b w

theorem mem_attempts {r : Regex α} {s rest : List α} :
    rest ∈ attempts r s ↔ ∃ w, Lang r w ∧ s = w ++ rest := by
  induction r generalizing s rest with
  | empty => simp [attempts, Lang, eq_comm]
  | one p =>
    cases s with
    | nil => simp [attempts, Lang]
    | cons a s =>
      simp only [attempts, Lang]
      constructor
      · intro h
        split at h
        · rename_i ha
          obtain rfl := List.mem_singleton.1 h
          exact ⟨[a], ⟨a, ha, rfl⟩, rfl⟩
        · cases h
      · rintro ⟨_, ⟨b, hb, rfl⟩, he⟩
        obtain ⟨rfl, rfl⟩ := List.cons_eq_cons.1 he
        rw [if_pos hb]
        exact List.mem_singleton_self _
  | seq a b iha ihb =>
    simp only [attempts, List.mem_flatMap, iha, ihb, Lang]
    constructor
    · rintro ⟨mid, ⟨u, hu, rfl⟩, v, hv, rfl⟩
      exact ⟨u ++ v, ⟨u, v, hu, hv, rfl⟩, by simp⟩
    · rintro ⟨w, ⟨u, v, hu, hv, rfl⟩, rfl⟩
      exact ⟨v ++ rest, ⟨u, hu, by simp⟩, v, hv, rfl⟩
  | alt a b iha ihb =>
    simp only [attempts, List.mem_append, iha, ihb, Lang]
    constructor
    · rintro (⟨w, hw, rfl⟩ | ⟨w, hw, rfl⟩)
      · exact ⟨w, .inl hw, rfl⟩
      · exact ⟨w, .inr hw, rfl⟩
    · rintro ⟨w, hw | hw, rfl⟩
      · exact .inl ⟨w, hw, rfl⟩
      · exact .inr ⟨w, hw, rfl⟩

theorem matchAt_eq_none {r : Regex α} {s : List α} :
    matchAt r s = none ↔ ∀ w rest, s = w ++ rest → ¬Lang r w := by
  unfold matchAt
  rw [List.head?_eq_none_iff, List.eq_nil_iff_forall_not_mem]
  simp only [mem_attempts]
  exact ⟨fun h w rest he hw => h rest ⟨w, hw, he⟩, fun h rest ⟨w, hw, he⟩ => h w rest he hw⟩

theorem lang_of_matchAt {r : Regex α} {s rest : List α} (h : matchAt r s = some rest) :
    ∃ w, Lang r w ∧ s = w ++ rest := mem_attempts.1 (List.mem_of_head? h)

/-! ## The preferred match -/

theorem matchAt_one {p : α → Bool} {a : α} (h : p a = true) (s : List α) :
    matchAt (one p) (a :: s) = some s := by simp [matchAt, attempts, h]

theorem matchAt_seq {a b : Regex α} {s mid rest : List α} (ha : matchAt a s = some mid)
    (hb : matchAt b mid = some rest) : matchAt (seq a b) s = some rest := by
  unfold matchAt at *
  obtain ⟨mids, he⟩ := List.head?_eq_some_iff.1 ha
  obtain ⟨rests, he'⟩ := List.head?_eq_some_iff.1 hb
  simp [attempts, he, he']

theorem matchAt_alt_left {a b : Regex α} {s rest : List α} (h : matchAt a s = some rest) :
    matchAt (alt a b) s = some rest := by
  unfold matchAt at *
  obtain ⟨rests, he⟩ := List.head?_eq_some_iff.1 h
  simp [attempts, he]

theorem matchAt_alt_right {a b : Regex α} {s : List α} (h : matchAt a s = none) :
    matchAt (alt a b) s = matchAt b s := by
  unfold matchAt at *
  simp [attempts, List.head?_eq_none_iff.1 h]

theorem matchAt_exactly {p : α → Bool} {w : List α} (h : ∀ a ∈ w, p a = true) (s : List α) :
    matchAt (exactly (one p) w.length) (w ++ s) = some s := by
  induction w with
  | nil => rfl
  | cons a w ih =>
    exact matchAt_seq (matchAt_one (h a List.mem_cons_self) _)
      (ih fun b hb => h b (List.mem_cons_of_mem _ hb))

theorem matchAt_atMost {p : α → Bool} {w : List α} {n : Nat} (h : ∀ a ∈ w, p a = true)
    (hn : w.length ≤ n) {s : List α} (hs : ∀ a ∈ s.head?, p a = false) :
    matchAt (atMost (one p) n) (w ++ s) = some s := by
  induction w generalizing n with
  | nil =>
    cases n with
    | zero => rfl
    | succ n =>
      have hnone : matchAt (seq (one p) (atMost (one p) n)) s = none := by
        cases s with
        | nil => rfl
        | cons a s => simp [matchAt, attempts, hs a rfl]
      exact matchAt_alt_right hnone
  | cons a w ih =>
    obtain ⟨n, rfl⟩ : ∃ m, n = m + 1 := ⟨n - 1, by simp at hn; omega⟩
    refine matchAt_alt_left (matchAt_seq (matchAt_one (h a List.mem_cons_self) _) ?_)
    exact ih (fun b hb => h b (List.mem_cons_of_mem _ hb)) (Nat.le_of_succ_le_succ hn)

/-- A bounded repetition takes all it can. -/
theorem matchAt_between {p : α → Bool} {w : List α} {m n : Nat} (h : ∀ a ∈ w, p a = true)
    (hm : m ≤ w.length) (hn : w.length ≤ n) {s : List α} (hs : ∀ a ∈ s.head?, p a = false) :
    matchAt (between (one p) m n) (w ++ s) = some s := by
  have hsplit : w ++ s = w.take m ++ (w.drop m ++ s) := by
    rw [← List.append_assoc, List.take_append_drop]
  have hlen : (w.take m).length = m := by simp [hm]
  have htake : ∀ a ∈ w.take m, p a = true := fun a ha => h a (List.mem_of_mem_take ha)
  have hfirst := matchAt_exactly htake (w.drop m ++ s)
  rw [hlen] at hfirst
  rw [hsplit]
  refine matchAt_seq hfirst (matchAt_atMost (fun a ha => h a (List.mem_of_mem_drop ha)) ?_ hs)
  rw [List.length_drop]
  omega

theorem matchAt_word [BEq α] [LawfulBEq α] (w s : List α) :
    matchAt (word w) (w ++ s) = some s := by
  induction w with
  | nil => rfl
  | cons a w ih => exact matchAt_seq (matchAt_one (beq_self_eq_true a) _) ih

/-! ## Words of the language -/

theorem lang_exactly {p : α → Bool} {n : Nat} {w : List α} :
    Lang (exactly (one p) n) w ↔ w.length = n ∧ ∀ a ∈ w, p a = true := by
  induction n generalizing w with
  | zero =>
    simp only [exactly, Lang, List.length_eq_zero_iff]
    exact ⟨fun h => ⟨h, by simp [h]⟩, And.left⟩
  | succ n ih =>
    simp only [exactly, Lang, ih]
    constructor
    · rintro ⟨_, v, ⟨a, ha, rfl⟩, ⟨rfl, hv⟩, rfl⟩
      exact ⟨rfl, by simpa [ha] using hv⟩
    · rintro ⟨hlen, hw⟩
      obtain ⟨a, v, rfl⟩ := List.exists_cons_of_length_eq_add_one hlen
      exact ⟨[a], v, ⟨a, hw a List.mem_cons_self, rfl⟩,
        ⟨by simpa using hlen, fun b hb => hw b (List.mem_cons_of_mem _ hb)⟩, rfl⟩

theorem lang_atMost {p : α → Bool} {n : Nat} {w : List α} :
    Lang (atMost (one p) n) w ↔ w.length ≤ n ∧ ∀ a ∈ w, p a = true := by
  induction n generalizing w with
  | zero =>
    simp only [atMost, Lang, Nat.le_zero, List.length_eq_zero_iff]
    exact ⟨fun h => ⟨h, by simp [h]⟩, And.left⟩
  | succ n ih =>
    simp only [atMost, Lang, ih]
    constructor
    · rintro (⟨_, v, ⟨a, ha, rfl⟩, ⟨hlen, hv⟩, rfl⟩ | rfl)
      · exact ⟨by simpa using hlen, by simpa [ha] using hv⟩
      · exact ⟨by simp, by simp⟩
    · rintro ⟨hlen, hw⟩
      cases w with
      | nil => exact .inr rfl
      | cons a v =>
        exact .inl ⟨[a], v, ⟨a, hw a List.mem_cons_self, rfl⟩,
          ⟨by simpa using hlen, fun b hb => hw b (List.mem_cons_of_mem _ hb)⟩, rfl⟩

theorem lang_between {p : α → Bool} {m n : Nat} (hmn : m ≤ n) {w : List α} :
    Lang (between (one p) m n) w ↔ (m ≤ w.length ∧ w.length ≤ n) ∧ ∀ a ∈ w, p a = true := by
  simp only [between, Lang, lang_exactly, lang_atMost]
  constructor
  · rintro ⟨u, v, ⟨rfl, hu⟩, ⟨hlen, hv⟩, rfl⟩
    refine ⟨by rw [List.length_append]; omega, fun a ha => ?_⟩
    exact (List.mem_append.1 ha).elim (hu a) (hv a)
  · rintro ⟨⟨hm, hn⟩, hw⟩
    refine ⟨w.take m, w.drop m, ⟨by simp [hm], fun a ha => hw a (List.mem_of_mem_take ha)⟩,
      ⟨?_, fun a ha => hw a (List.mem_of_mem_drop ha)⟩, (List.take_append_drop m w).symm⟩
    rw [List.length_drop]
    omega

theorem lang_word [BEq α] [LawfulBEq α] {w v : List α} : Lang (word w) v ↔ v = w := by
  induction w generalizing v with
  | nil => rfl
  | cons a w ih =>
    simp only [word, Lang, ih, beq_iff_eq]
    constructor
    · rintro ⟨_, _, ⟨_, rfl, rfl⟩, rfl, rfl⟩
      rfl
    · rintro rfl
      exact ⟨[a], w, ⟨a, rfl, rfl⟩, rfl, rfl⟩

/-- No word of the language is anywhere in the text. -/
def Absent (r : Regex α) (s : List α) : Prop := ∀ w, Lang r w → ¬w <:+: s

theorem absent_iff {r : Regex α} {s : List α} :
    Absent r s ↔ ∀ q ∈ s.tails, matchAt r q = none := by
  simp only [List.mem_tails, matchAt_eq_none]
  constructor
  · rintro h q ⟨p, rfl⟩ w rest rfl hw
    exact h w hw ⟨p, rest, by simp⟩
  · rintro h w hw ⟨p, rest, rfl⟩
    exact h (w ++ rest) ⟨p, by simp⟩ w rest rfl hw

/-! ## Replacing -/

/-- The replaced match: nothing matches before it. -/
theorem replace_of_first {r : Regex α} {text pre s rest : List α}
    (hpre : ∀ p q, pre = p ++ q → q ≠ [] → matchAt r (q ++ s) = none)
    (hs : matchAt r s = some rest) : replace r text (pre ++ s) = pre ++ (text ++ rest) := by
  induction pre with
  | nil =>
    cases s with
    | nil => simp only [List.nil_append, replace, hs]
    | cons a s => simp only [List.nil_append, replace, hs]
  | cons a pre ih =>
    have hnone : matchAt r (a :: (pre ++ s)) = none := hpre [] (a :: pre) rfl nofun
    have ih := ih fun p q he hq => hpre (a :: p) q (by rw [he]; rfl) hq
    simp only [List.cons_append, replace, hnone, ih]

/-- Whatever matches somewhere, something is replaced there or before. -/
theorem exists_replace {r : Regex α} {text pre s rest : List α} (hs : matchAt r s = some rest) :
    ∃ p q rest', pre ++ s = p ++ q ∧ p.length ≤ pre.length ∧ matchAt r q = some rest' ∧
      replace r text (pre ++ s) = p ++ (text ++ rest') := by
  induction pre with
  | nil => exact ⟨[], s, rest, rfl, Nat.le_refl _, hs, replace_of_first (fun p q he hq => absurd
      (List.append_eq_nil_iff.1 he.symm).2 hq) hs⟩
  | cons a pre ih =>
    cases hm : matchAt r (a :: (pre ++ s)) with
    | some rest' =>
      refine ⟨[], a :: (pre ++ s), rest', rfl, Nat.zero_le _, hm, ?_⟩
      simp only [List.cons_append, replace, hm, List.nil_append]
    | none =>
      obtain ⟨p, q, rest', he, hlen, hq, hr⟩ := ih
      refine ⟨a :: p, q, rest', by rw [List.cons_append, he]; rfl, Nat.succ_le_succ hlen, hq, ?_⟩
      simp only [List.cons_append, replace, hm, hr]

end Regex

end Core
