import Mathlib.Data.List.Infix
import Mathlib.Logic.Equiv.Basic

/-!
# File systems

A file system says what is at each path (`Fs`). Every operation takes the fault it meets, if
any, and gives its result and the file system it leaves; an operation that fails may leave
part of its work done (`createDirAll`) or none of it (`rename`).

* `createDirAll_apply`: directories appear where nothing was, and nowhere else.
* `rename_cases`: what was at one path is at another, or nothing has changed.
* `Carries`: every file is still somewhere, no two in one place. It is reflexive and
  transitive, creating directories keeps it, and so does a rename to a vacant path.
-/
namespace Core

inductive Entry (α : Type) where
  | file (content : α)
  | dir
  deriving DecidableEq, Repr

abbrev Path := List String

/-- What is at each path. -/
abbrev Fs (α : Type) := Path → Option (Entry α)

namespace Fs

variable {α ε : Type}

def set (fs : Fs α) (p : Path) (e : Option (Entry α)) : Fs α := fun q => if q = p then e else fs q

@[simp] theorem set_self (fs : Fs α) (p : Path) (e : Option (Entry α)) : fs.set p e p = e :=
  if_pos rfl

theorem set_of_ne (fs : Fs α) {p q : Path} (h : q ≠ p) (e : Option (Entry α)) :
    fs.set p e q = fs q := if_neg h

/-- Something is at the path. -/
def tryExists (fault : Option ε) (fs : Fs α) (p : Path) : Except ε Bool :=
  match fault with
  | some e => .error e
  | none => .ok (fs p).isSome

/-- Create the directories of a list from the first to the last. The fault comes when so many
of them are there; a file in place of one is an error too. -/
def makeDirs (notDir : ε) (fault : Option (Nat × ε)) (fs : Fs α) :
    List Path → Except ε Unit × Fs α
  | [] => (.ok (), fs)
  | p :: ps =>
    match fault, fs p with
    | some (0, e), _ => (.error e, fs)
    | _, some (.file _) => (.error notDir, fs)
    | _, some .dir => makeDirs notDir (fault.map fun (n, e) => (n - 1, e)) fs ps
    | _, none => makeDirs notDir (fault.map fun (n, e) => (n - 1, e)) (fs.set p (some .dir)) ps

/-- Create a directory and all above it. -/
def createDirAll (notDir : ε) (fault : Option (Nat × ε)) (fs : Fs α) (p : Path) :
    Except ε Unit × Fs α :=
  makeDirs notDir fault fs p.inits

/-- Move a file, in place of the file at the target if there is one. -/
def rename (notFound isDir : ε) (fault : Option ε) (fs : Fs α) (source target : Path) :
    Except ε Unit × Fs α :=
  match fault, fs source, fs target with
  | some e, _, _ => (.error e, fs)
  | none, none, _ => (.error notFound, fs)
  | none, some _, some .dir => (.error isDir, fs)
  | none, some e, _ =>
    if source = target then (.ok (), fs) else (.ok (), (fs.set target (some e)).set source none)

/-! ## What the operations do -/

theorem tryExists_eq_ok {fault : Option ε} {fs : Fs α} {p : Path} {b : Bool}
    (h : tryExists fault fs p = .ok b) : b = (fs p).isSome := by
  cases fault with
  | none => exact (Except.ok.inj h).symm
  | some e => cases h

/-- A path of the list is as it was, or a new directory is there; other paths are as they
were. -/
theorem makeDirs_apply (notDir : ε) (fault : Option (Nat × ε)) (fs : Fs α) (ps : List Path)
    (q : Path) :
    (makeDirs notDir fault fs ps).2 q = fs q ∨
    (fs q = none ∧ (makeDirs notDir fault fs ps).2 q = some .dir ∧ q ∈ ps) := by
  induction ps generalizing fault fs with
  | nil => exact .inl rfl
  | cons p ps ih =>
    unfold makeDirs
    split
    · exact .inl rfl
    · exact .inl rfl
    · exact (ih _ fs).imp_right fun ⟨hn, hd, hm⟩ => ⟨hn, hd, List.mem_cons_of_mem p hm⟩
    · rename_i hp
      by_cases hq : q = p
      · subst hq
        refine .inr ⟨hp, ?_, List.mem_cons_self⟩
        rcases ih _ (fs.set q (some .dir)) with h | ⟨hn, -⟩
        · rw [h, set_self]
        · rw [set_self] at hn
          cases hn
      · rcases ih _ (fs.set p (some .dir)) with h | ⟨hn, hd, hm⟩
        · exact .inl (h.trans (set_of_ne fs hq _))
        · exact .inr ⟨(set_of_ne fs hq _).symm.trans hn, hd, List.mem_cons_of_mem p hm⟩

/-- Without a fault and without files in the way, all the directories are there. -/
theorem makeDirs_ok (notDir : ε) (fs : Fs α) (ps : List Path)
    (h : ∀ p ∈ ps, ∀ c, fs p ≠ some (.file c)) :
    (makeDirs notDir none fs ps).1 = .ok () ∧
      ∀ p ∈ ps, (makeDirs notDir none fs ps).2 p = some .dir := by
  induction ps generalizing fs with
  | nil => exact ⟨rfl, nofun⟩
  | cons p ps ih =>
    have hhere := h p List.mem_cons_self
    have hrest : ∀ q ∈ ps, ∀ c, fs q ≠ some (.file c) :=
      fun q hq => h q (List.mem_cons_of_mem p hq)
    unfold makeDirs
    cases hp : fs p with
    | none =>
      have hset : ∀ q ∈ ps, ∀ c, fs.set p (some .dir) q ≠ some (.file c) := by
        intro q hq c
        by_cases he : q = p
        · rw [he, set_self]
          nofun
        · rw [set_of_ne fs he]
          exact hrest q hq c
      obtain ⟨hok, hdirs⟩ := ih (fs.set p (some .dir)) hset
      refine ⟨hok, fun q hq => ?_⟩
      rcases List.mem_cons.1 hq with rfl | hq
      · rcases makeDirs_apply notDir none (fs.set q (some .dir)) ps q with he | ⟨hn, -⟩
        · exact he.trans (set_self fs q _)
        · rw [set_self] at hn
          cases hn
      · exact hdirs q hq
    | some e =>
      cases e with
      | file c => exact absurd hp (hhere c)
      | dir =>
        obtain ⟨hok, hdirs⟩ := ih fs hrest
        refine ⟨hok, fun q hq => ?_⟩
        rcases List.mem_cons.1 hq with rfl | hq
        · rcases makeDirs_apply notDir none fs ps q with he | ⟨hn, -⟩
          · exact he.trans hp
          · rw [hp] at hn
            cases hn
        · exact hdirs q hq

/-- A file in the way is an error. -/
theorem makeDirs_file (notDir : ε) (fault : Option (Nat × ε)) (fs : Fs α) {ps : List Path}
    {p : Path} {c : α} (hp : p ∈ ps) (h : fs p = some (.file c)) :
    ∃ e, (makeDirs notDir fault fs ps).1 = .error e := by
  induction ps generalizing fault fs with
  | nil => cases hp
  | cons q ps ih =>
    have hmem : q ≠ p → p ∈ ps := fun hne => (List.mem_cons.1 hp).resolve_left (Ne.symm hne)
    unfold makeDirs
    split
    · exact ⟨_, rfl⟩
    · exact ⟨_, rfl⟩
    · rename_i hq
      refine ih _ fs (hmem ?_) h
      rintro rfl
      rw [h] at hq
      cases hq
    · rename_i hq
      have hne : q ≠ p := by
        rintro rfl
        rw [h] at hq
        cases hq
      exact ih _ _ (hmem hne) ((set_of_ne fs (Ne.symm hne) _).trans h)

theorem createDirAll_apply (notDir : ε) (fault : Option (Nat × ε)) (fs : Fs α) (p q : Path) :
    (createDirAll notDir fault fs p).2 q = fs q ∨
    (fs q = none ∧ (createDirAll notDir fault fs p).2 q = some .dir ∧ q <+: p) := by
  rcases makeDirs_apply notDir fault fs p.inits q with h | ⟨hn, hd, hm⟩
  · exact .inl h
  · exact .inr ⟨hn, hd, (List.mem_inits q p).1 hm⟩

theorem createDirAll_of_some (notDir : ε) (fault : Option (Nat × ε)) {fs : Fs α} {p q : Path}
    {e : Entry α} (h : fs q = some e) : (createDirAll notDir fault fs p).2 q = some e := by
  rcases createDirAll_apply notDir fault fs p q with he | ⟨hn, -⟩
  · rw [he, h]
  · rw [h] at hn
    cases hn

theorem createDirAll_of_not_above (notDir : ε) (fault : Option (Nat × ε)) (fs : Fs α) {p q : Path}
    (h : ¬q <+: p) : (createDirAll notDir fault fs p).2 q = fs q := by
  rcases createDirAll_apply notDir fault fs p q with he | ⟨-, -, hq⟩
  · exact he
  · exact absurd hq h

/-- The result of a rename is an error and no change, or the move. -/
theorem rename_cases (notFound isDir : ε) (fault : Option ε) (fs : Fs α) (source target : Path) :
    (∃ e, rename notFound isDir fault fs source target = (.error e, fs)) ∨
    (∃ e, fs source = some e ∧ source = target ∧
      rename notFound isDir fault fs source target = (.ok (), fs)) ∨
    (∃ e, fs source = some e ∧ source ≠ target ∧
      rename notFound isDir fault fs source target =
        (.ok (), (fs.set target (some e)).set source none)) := by
  unfold rename
  split
  · exact .inl ⟨_, rfl⟩
  · exact .inl ⟨_, rfl⟩
  · exact .inl ⟨_, rfl⟩
  · rename_i e hs _
    by_cases h : source = target
    · rw [if_pos h]
      exact .inr (.inl ⟨e, hs, h, rfl⟩)
    · rw [if_neg h]
      exact .inr (.inr ⟨e, hs, h, rfl⟩)

theorem rename_of_vacant (notFound isDir : ε) {fs : Fs α} {source target : Path} {e : Entry α}
    (hs : fs source = some e) (ht : fs target = none) :
    rename notFound isDir none fs source target =
      (.ok (), (fs.set target (some e)).set source none) := by
  have hne : source ≠ target := by
    rintro rfl
    rw [hs] at ht
    cases ht
  unfold rename
  rw [hs, ht]
  exact if_neg hne

/-! ## Files that stay -/

/-- Every file is somewhere, with its content, and no two are in one place. -/
def Carries (fs fs' : Fs α) : Prop :=
  ∃ f : Path → Path, Function.Injective f ∧
    ∀ p c, fs p = some (.file c) → fs' (f p) = some (.file c)

theorem Carries.refl (fs : Fs α) : Carries fs fs := ⟨id, Function.injective_id, fun _ _ h => h⟩

theorem Carries.trans {fs fs' fs'' : Fs α} (h : Carries fs fs') (h' : Carries fs' fs'') :
    Carries fs fs'' := by
  obtain ⟨f, hf, hfs⟩ := h
  obtain ⟨g, hg, hfs'⟩ := h'
  exact ⟨g ∘ f, hg.comp hf, fun p c hp => hfs' (f p) c (hfs p c hp)⟩

theorem carries_createDirAll (notDir : ε) (fault : Option (Nat × ε)) (fs : Fs α) (p : Path) :
    Carries fs (createDirAll notDir fault fs p).2 :=
  ⟨id, Function.injective_id, fun _ _ h => createDirAll_of_some notDir fault h⟩

theorem carries_move {fs : Fs α} {source target : Path} {e : Entry α} (hs : fs source = some e)
    (ht : fs target = none) : Carries fs ((fs.set target (some e)).set source none) := by
  have hne : target ≠ source := by
    rintro rfl
    rw [hs] at ht
    cases ht
  refine ⟨Equiv.swap source target, (Equiv.swap source target).injective, fun p c hp => ?_⟩
  by_cases hps : p = source
  · subst hps
    rw [Equiv.swap_apply_left, set_of_ne _ hne, set_self, ← hs, hp]
  · have hpt : p ≠ target := by
      rintro rfl
      rw [ht] at hp
      cases hp
    rw [Equiv.swap_apply_of_ne_of_ne hps hpt, set_of_ne _ hps, set_of_ne _ hpt, hp]

end Fs

end Core
