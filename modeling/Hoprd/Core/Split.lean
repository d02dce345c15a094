import Mathlib.Data.List.Basic

/-!
# Splitting at the first separator

`splitOnce sep l` is the part of `l` before the first `sep` and the part after
it, when there is one (`splitOnce_eq_some_iff`); `rsplitOnce` splits at the last
one, and `splitOnceAt` at the first occurrence of a list.
-/
namespace Core

variable {α : Type} [DecidableEq α]

def splitOnce (sep : α) : List α → Option (List α × List α)
  | [] => none
  | a :: l => if a = sep then some ([], l) else (splitOnce sep l).map fun (b, c) => (a :: b, c)

theorem splitOnce_append {sep : α} {b : List α} (h : sep ∉ b) (c : List α) :
    splitOnce sep (b ++ sep :: c) = some (b, c) := by
  induction b with
  | nil => exact if_pos rfl
  | cons a b ih =>
    have ha : a ≠ sep := fun e => h (e ▸ List.mem_cons_self)
    have hb : sep ∉ b := fun hm => h (List.mem_cons_of_mem _ hm)
    rw [List.cons_append, splitOnce, if_neg ha, ih hb]
    rfl

theorem splitOnce_of_notMem {sep : α} {l : List α} (h : sep ∉ l) : splitOnce sep l = none := by
  induction l with
  | nil => rfl
  | cons a l ih =>
    have ha : a ≠ sep := fun e => h (e ▸ List.mem_cons_self)
    rw [splitOnce, if_neg ha, ih fun hm => h (List.mem_cons_of_mem _ hm)]
    rfl

theorem splitOnce_eq_some_iff {sep : α} {l b c : List α} :
    splitOnce sep l = some (b, c) ↔ l = b ++ sep :: c ∧ sep ∉ b := by
  refine ⟨fun h => ?_, fun ⟨he, hn⟩ => he ▸ splitOnce_append hn c⟩
  induction l generalizing b with
  | nil => cases h
  | cons a l ih =>
    rw [splitOnce] at h
    split at h
    · rename_i ha
      cases h
      exact ⟨by rw [ha]; rfl, List.not_mem_nil⟩
    · rename_i ha
      obtain ⟨⟨b', c'⟩, hs, he⟩ := Option.map_eq_some_iff.1 h
      cases he
      obtain ⟨rfl, hn⟩ := ih hs
      refine ⟨rfl, fun hm => ?_⟩
      rcases List.mem_cons.1 hm with rfl | hm
      · exact ha rfl
      · exact hn hm

theorem splitOnce_eq_none_iff {sep : α} {l : List α} : splitOnce sep l = none ↔ sep ∉ l := by
  refine ⟨fun h hmem => ?_, splitOnce_of_notMem⟩
  obtain ⟨b, c, rfl, hb⟩ := List.eq_append_cons_of_mem hmem
  rw [splitOnce_append hb] at h
  cases h

/-! ## At the last separator -/

def rsplitOnce (sep : α) (l : List α) : Option (List α × List α) :=
  (splitOnce sep l.reverse).map fun (b, c) => (c.reverse, b.reverse)

theorem rsplitOnce_eq_some_iff {sep : α} {l b c : List α} :
    rsplitOnce sep l = some (b, c) ↔ l = b ++ sep :: c ∧ sep ∉ c := by
  unfold rsplitOnce
  rw [Option.map_eq_some_iff]
  constructor
  · rintro ⟨⟨x, y⟩, h, heq⟩
    obtain ⟨rfl, rfl⟩ := Prod.mk.inj heq
    obtain ⟨hl, hx⟩ := splitOnce_eq_some_iff.1 h
    refine ⟨?_, by rwa [List.mem_reverse]⟩
    rw [← List.reverse_inj, hl]
    simp
  · rintro ⟨rfl, hc⟩
    refine ⟨(c.reverse, b.reverse), splitOnce_eq_some_iff.2 ⟨by simp, by simpa using hc⟩, by simp⟩

theorem rsplitOnce_eq_none_iff {sep : α} {l : List α} : rsplitOnce sep l = none ↔ sep ∉ l := by
  unfold rsplitOnce
  rw [Option.map_eq_none_iff, splitOnce_eq_none_iff, List.mem_reverse]

/-! ## At a list -/

def splitOnceAt (sep : List α) : List α → Option (List α × List α)
  | [] => if sep = [] then some ([], []) else none
  | a :: l =>
    if sep <+: a :: l then some ([], (a :: l).drop sep.length)
    else (splitOnceAt sep l).map fun (b, c) => (a :: b, c)

theorem eq_of_splitOnceAt {sep l b c : List α} (h : splitOnceAt sep l = some (b, c)) :
    l = b ++ sep ++ c := by
  induction l generalizing b with
  | nil =>
    rw [splitOnceAt] at h
    split at h
    · next hsep =>
      cases h
      rw [hsep]
      rfl
    · cases h
  | cons a l ih =>
    rw [splitOnceAt] at h
    split at h
    · next hpre =>
      obtain ⟨t, ht⟩ := hpre
      cases h
      rw [← ht, List.drop_left]
      rfl
    · obtain ⟨⟨b', c'⟩, h', heq⟩ := Option.map_eq_some_iff.1 h
      cases heq
      rw [ih h']
      rfl

/-- What comes before the separator does not hold one, nor the beginning of one that the
separator goes on with. -/
theorem splitOnceAt_append {sep b : List α} (hne : sep ≠ []) (h : ¬sep <:+: b ++ sep.dropLast)
    (c : List α) : splitOnceAt sep (b ++ sep ++ c) = some (b, c) := by
  induction b with
  | nil =>
    obtain ⟨a, t, rfl⟩ := List.exists_cons_of_ne_nil hne
    rw [List.nil_append, List.cons_append, splitOnceAt, if_pos ⟨c, rfl⟩, ← List.cons_append,
      List.drop_left]
  | cons a b ih =>
    have hnot : ¬sep <+: a :: (b ++ sep ++ c) := by
      intro hpre
      refine h ?_
      have hwhole : a :: (b ++ sep ++ c) =
          (a :: b ++ sep.dropLast) ++ (sep.getLast hne :: c) := by
        have hsep : sep.dropLast ++ sep.getLast hne :: c = sep ++ c := by
          rw [List.append_cons, List.dropLast_append_getLast hne]
        rw [List.append_assoc (a :: b), hsep]
        simp
      rw [hwhole] at hpre
      have hlen : sep.length ≤ (a :: b ++ sep.dropLast).length := by
        have hpos := List.length_pos_iff.2 hne
        simp only [List.cons_append, List.length_cons, List.length_append, List.length_dropLast]
        omega
      exact (List.prefix_of_prefix_length_le hpre (List.prefix_append _ _) hlen).isInfix
    have hb : ¬sep <:+: b ++ sep.dropLast := fun hin => h (hin.trans (List.suffix_cons a _).isInfix)
    rw [List.cons_append, List.cons_append, splitOnceAt, if_neg hnot, ih hb]
    rfl

theorem splitOnceAt_eq_none {sep l : List α} (h : ¬sep <:+: l) :
    splitOnceAt sep l = none := by
  cases hs : splitOnceAt sep l with
  | none => rfl
  | some p => exact absurd ⟨p.1, p.2, (eq_of_splitOnceAt hs).symm⟩ h

end Core
