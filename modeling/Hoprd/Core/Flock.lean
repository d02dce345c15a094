import Mathlib.Data.Option.Basic

/-!
# Exclusive advisory locks

Exclusive locks on files, each held by at most one owner: a lock is taken
without blocking (`tryLock`, which names the holder when it fails) and given back
when its owner exits (`releaseAll`). Locks belong to open file descriptions, so
an owner that asks twice for one file is refused like anyone else.

What an operation of one owner does to another's locks is one lemma each: nothing.
-/
namespace Core

structure Locks (File Owner : Type) where
  holder : File → Option Owner

namespace Locks

variable {File Owner : Type}

def unlocked : Locks File Owner := ⟨fun _ => none⟩

/-- `f` is locked by `o`. -/
def Held (t : Locks File Owner) (o : Owner) (f : File) : Prop := t.holder f = some o

theorem not_held_unlocked (o : Owner) (f : File) : ¬(unlocked : Locks File Owner).Held o f := by
  intro h; cases h

/-- A file has one holder. -/
theorem Held.unique {t : Locks File Owner} {a b : Owner} {f : File} (ha : t.Held a f)
    (hb : t.Held b f) : a = b := by
  unfold Held at ha hb
  rw [ha] at hb
  exact Option.some.inj hb

section Lock

variable [DecidableEq File]

/-- Takes the lock of `f` for `o`, or says who has it. -/
def tryLock (t : Locks File Owner) (f : File) (o : Owner) : Except Owner (Locks File Owner) :=
  match t.holder f with
  | some a => .error a
  | none => .ok ⟨fun g => if g = f then some o else t.holder g⟩

theorem held_of_tryLock_error {t : Locks File Owner} {f : File} {o a : Owner}
    (h : t.tryLock f o = .error a) : t.Held a f := by
  unfold tryLock at h
  cases hf : t.holder f with
  | none => rw [hf] at h; cases h
  | some b => rw [hf] at h; cases h; exact hf

theorem tryLock_of_held {t : Locks File Owner} {f : File} {o a : Owner} (h : t.Held a f) :
    t.tryLock f o = .error a := by
  unfold tryLock Held at *
  rw [h]

/-- The new owner holds what it held, and `f`. -/
theorem held_tryLock_self {t t' : Locks File Owner} {f : File} {o : Owner}
    (h : t.tryLock f o = .ok t') (g : File) : t'.Held o g ↔ g = f ∨ t.Held o g := by
  unfold tryLock at h
  cases hf : t.holder f with
  | some a => rw [hf] at h; cases h
  | none =>
    rw [hf] at h; cases h
    unfold Held
    by_cases hg : g = f
    · simp [hg]
    · simp [hg]

theorem held_tryLock_other {t t' : Locks File Owner} {f : File} {o p : Owner}
    (h : t.tryLock f o = .ok t') (hp : p ≠ o) (g : File) : t'.Held p g ↔ t.Held p g := by
  unfold tryLock at h
  cases hf : t.holder f with
  | some a => rw [hf] at h; cases h
  | none =>
    rw [hf] at h; cases h
    unfold Held
    by_cases hg : g = f
    · subst hg; simp [hf, Ne.symm hp]
    · simp [hg]

end Lock

section Release

variable [DecidableEq Owner]

/-- `o` exits. -/
def releaseAll (t : Locks File Owner) (o : Owner) : Locks File Owner :=
  ⟨fun f => if t.holder f = some o then none else t.holder f⟩

theorem not_held_releaseAll_self (t : Locks File Owner) (o : Owner) (f : File) :
    ¬(t.releaseAll o).Held o f := by
  unfold releaseAll Held
  by_cases h : t.holder f = some o
  · simp [h]
  · simp [h]

theorem held_releaseAll_other (t : Locks File Owner) {o p : Owner} (hp : p ≠ o) (f : File) :
    (t.releaseAll o).Held p f ↔ t.Held p f := by
  unfold releaseAll Held
  by_cases h : t.holder f = some o
  · simp [h, Ne.symm hp]
  · simp [h]

end Release

end Locks

end Core
