import Hoprd.Rust
import Mathlib.Data.List.TakeWhile

/-!
# Text and its bytes (`str::trim`, `str::parse`, `str::as_bytes`)

Rust's own string functions, those that read on lists of characters. `trim` is
characterised by the text it leaves, which has no blank at either end
(`trim_eq_iff`), and `parseUnsigned` by the numerals it reads
(`parseUnsigned_eq_some_iff`).
-/
namespace Hoprd.Text

/-! ## Blanks -/

/-- `char::is_whitespace`: the Unicode property White_Space. -/
def isWhitespace (c : Char) : Bool :=
  let n := c.toNat
  (9 ≤ n && n ≤ 13) || n == 0x20 || n == 0x85 || n == 0xA0 || n == 0x1680 ||
    (0x2000 ≤ n && n ≤ 0x200A) || n == 0x2028 || n == 0x2029 || n == 0x202F || n == 0x205F ||
    n == 0x3000

def Blank (s : List Char) : Prop := ∀ c ∈ s, isWhitespace c = true

instance (s : List Char) : Decidable (Blank s) := List.decidableBAll _ s

def trimStart (s : List Char) : List Char := s.dropWhile isWhitespace

def trimEnd (s : List Char) : List Char := (s.reverse.dropWhile isWhitespace).reverse

/-- `str::trim`. -/
def trim (s : List Char) : List Char := trimEnd (trimStart s)

/-- No blank at either end. -/
def Trimmed (s : List Char) : Prop :=
  (∀ c ∈ s.head?, isWhitespace c = false) ∧ ∀ c ∈ s.getLast?, isWhitespace c = false

theorem blank_nil : Blank [] := by simp [Blank]

theorem blank_append {s t : List Char} : Blank (s ++ t) ↔ Blank s ∧ Blank t := by
  simp only [Blank, List.mem_append]
  exact ⟨fun h => ⟨fun c hc => h c (.inl hc), fun c hc => h c (.inr hc)⟩,
    fun h c hc => hc.elim (h.1 c) (h.2 c)⟩

theorem blank_reverse {s : List Char} : Blank s.reverse ↔ Blank s := by simp [Blank]

theorem dropWhile_blank_append {pre s : List Char} (h : Blank pre) :
    (pre ++ s).dropWhile isWhitespace = s.dropWhile isWhitespace := by
  induction pre with
  | nil => rfl
  | cons a pre ih =>
    rw [List.cons_append, List.dropWhile_cons_of_pos (h a List.mem_cons_self)]
    exact ih fun c hc => h c (List.mem_cons_of_mem _ hc)

theorem dropWhile_of_head {s : List Char} (h : ∀ c ∈ s.head?, isWhitespace c = false) :
    s.dropWhile isWhitespace = s := by
  cases s with
  | nil => rfl
  | cons a s =>
    have ha : ¬ isWhitespace a = true := by simp [h a rfl]
    exact List.dropWhile_cons_of_neg ha

theorem exists_blank_dropWhile (s : List Char) :
    ∃ pre, Blank pre ∧ s = pre ++ s.dropWhile isWhitespace :=
  ⟨s.takeWhile isWhitespace, fun _ hc => List.mem_takeWhile_imp hc,
    (List.takeWhile_append_dropWhile).symm⟩

theorem head_dropWhile (s : List Char) :
    ∀ c ∈ (s.dropWhile isWhitespace).head?, isWhitespace c = false := by
  intro c hc
  have h := List.head?_dropWhile_not isWhitespace s
  rw [Option.mem_def.1 hc] at h
  simpa using h

theorem trim_append {pre s post : List Char} (hpre : Blank pre) (hpost : Blank post)
    (hs : Trimmed s) : trim (pre ++ s ++ post) = s := by
  unfold trim trimStart trimEnd
  rw [List.append_assoc, dropWhile_blank_append hpre]
  cases s with
  | nil =>
    have h : post.dropWhile isWhitespace = [] := List.dropWhile_eq_nil_iff.2 hpost
    simp [h]
  | cons a s =>
    have hhead : ∀ c ∈ ((a :: s) ++ post).head?, isWhitespace c = false := hs.1
    have hlast : ∀ c ∈ ((a :: s).reverse).head?, isWhitespace c = false := by
      rw [List.head?_reverse]
      exact hs.2
    rw [dropWhile_of_head hhead, List.reverse_append,
      dropWhile_blank_append (blank_reverse.2 hpost), dropWhile_of_head hlast, List.reverse_reverse]

theorem trimmed_trim (s : List Char) : Trimmed (trim s) := by
  have hlast : ∀ c ∈ (trim s).getLast?, isWhitespace c = false := by
    unfold trim trimEnd
    rw [List.getLast?_reverse]
    exact head_dropWhile _
  refine ⟨?_, hlast⟩
  -- the head of what is left is the head of `trimStart s`
  obtain ⟨post, -, he⟩ := exists_blank_dropWhile (trimStart s).reverse
  have he' : trimStart s = trim s ++ post.reverse := by
    rw [← List.reverse_inj, he]
    simp [trim, trimEnd]
  intro c hc
  refine head_dropWhile s c ?_
  show c ∈ (trimStart s).head?
  rw [he']
  cases ht : trim s with
  | nil => rw [ht] at hc; cases hc
  | cons a t => rw [ht] at hc; exact hc

theorem exists_trim (s : List Char) :
    ∃ pre post, Blank pre ∧ Blank post ∧ s = pre ++ trim s ++ post := by
  obtain ⟨pre, hpre, h1⟩ := exists_blank_dropWhile s
  obtain ⟨post, hpost, h2⟩ := exists_blank_dropWhile (trimStart s).reverse
  refine ⟨pre, post.reverse, hpre, blank_reverse.2 hpost, ?_⟩
  have he : trimStart s = trim s ++ post.reverse := by
    rw [← List.reverse_inj, h2]
    simp [trim, trimEnd]
  rw [List.append_assoc, ← he]
  exact h1

theorem trim_eq_iff {s t : List Char} :
    trim s = t ↔ Trimmed t ∧ ∃ pre post, Blank pre ∧ Blank post ∧ s = pre ++ t ++ post := by
  constructor
  · rintro rfl
    exact ⟨trimmed_trim s, exists_trim s⟩
  · rintro ⟨ht, pre, post, hpre, hpost, rfl⟩
    exact trim_append hpre hpost ht

theorem trim_of_trimmed {s : List Char} (h : Trimmed s) : trim s = s :=
  trim_eq_iff.2 ⟨h, [], [], blank_nil, blank_nil, by simp⟩

theorem trim_eq_nil_iff {s : List Char} : trim s = [] ↔ Blank s := by
  constructor
  · intro h
    obtain ⟨pre, post, hpre, hpost, he⟩ := exists_trim s
    rw [he, h, List.append_nil]
    exact blank_append.2 ⟨hpre, hpost⟩
  · intro h
    exact trim_eq_iff.2 ⟨⟨nofun, nofun⟩, s, [], h, blank_nil, by simp⟩

/-! ## Unsigned integers -/

/-- `str::parse` for an unsigned type whose values are below `limit`. -/
def parseUnsigned (limit : Nat) (s : List Char) : Option Nat :=
  let digits := match s with
    | '+' :: digits => digits
    | digits => digits
  if digits.isEmpty || !digits.all Char.isDigit then none
  else
    let n := Nat.ofDigitChars 10 digits 0
    if n < limit then some n else none

def parseU32 : List Char → Option Nat := parseUnsigned (2 ^ 32)

def parseU64 : List Char → Option Nat := parseUnsigned (2 ^ 64)

/-- Digits of `n`, at least one, after an optional plus sign. -/
inductive Numeral (n : Nat) : List Char → Prop where
  | digits (ds : List Char) (hne : ds ≠ []) (hd : ∀ c ∈ ds, c.isDigit = true)
      (hn : Nat.ofDigitChars 10 ds 0 = n) : Numeral n ds
  | plus (ds : List Char) (hne : ds ≠ []) (hd : ∀ c ∈ ds, c.isDigit = true)
      (hn : Nat.ofDigitChars 10 ds 0 = n) : Numeral n ('+' :: ds)

theorem parseDigits_eq_some_iff {limit n : Nat} {ds : List Char} :
    (if ds.isEmpty || !ds.all Char.isDigit then none
      else if Nat.ofDigitChars 10 ds 0 < limit then some (Nat.ofDigitChars 10 ds 0) else none) =
        some n ↔
      (ds ≠ [] ∧ (∀ c ∈ ds, c.isDigit = true) ∧ Nat.ofDigitChars 10 ds 0 = n) ∧ n < limit := by
  by_cases h : ds.isEmpty || !ds.all Char.isDigit
  · rw [if_pos h]
    refine ⟨nofun, ?_⟩
    rintro ⟨⟨hne, hd, -⟩, -⟩
    have hall : ds.all Char.isDigit = true := List.all_eq_true.2 hd
    simp [hne, hall] at h
  · rw [if_neg h]
    simp only [Bool.or_eq_true, List.isEmpty_iff, Bool.not_eq_true', not_or,
      Bool.not_eq_false] at h
    constructor
    · intro he
      split at he
      · rename_i hlt
        cases he
        exact ⟨⟨h.1, List.all_eq_true.1 h.2, rfl⟩, hlt⟩
      · cases he
    · rintro ⟨⟨-, -, rfl⟩, hlt⟩
      exact if_pos hlt

theorem parseUnsigned_eq_some_iff {limit n : Nat} {s : List Char} :
    parseUnsigned limit s = some n ↔ Numeral n s ∧ n < limit := by
  unfold parseUnsigned
  split
  · rename_i ds
    rw [parseDigits_eq_some_iff]
    refine and_congr_left fun _ => ⟨fun ⟨hne, hd, hn⟩ => .plus ds hne hd hn, fun h => ?_⟩
    cases h with
    | digits _ _ hd => exact absurd (hd '+' List.mem_cons_self) (by decide)
    | plus _ hne hd hn => exact ⟨hne, hd, hn⟩
  · rename_i hplus
    rw [parseDigits_eq_some_iff]
    refine and_congr_left fun _ => ⟨fun ⟨hne, hd, hn⟩ => .digits s hne hd hn, fun h => ?_⟩
    cases h with
    | digits _ hne hd hn => exact ⟨hne, hd, hn⟩
    | plus ds => exact absurd rfl (hplus ds)

theorem isDigit_of_mem_toDigits {n : Nat} {c : Char} (h : c ∈ Nat.toDigits 10 n) :
    c.isDigit = true := Nat.isDigit_of_mem_toDigits (by decide) (by decide) h

theorem notMem_toDigits {c : Char} (hc : c.isDigit = false) (n : Nat) :
    c ∉ Nat.toDigits 10 n := by
  intro h
  rw [isDigit_of_mem_toDigits h] at hc
  cases hc

theorem toDigits_injective : Function.Injective (Nat.toDigits 10) := by
  intro m n h
  have hval := congrArg (fun ds => Nat.ofDigitChars 10 ds 0) h
  simpa only [Nat.ofDigitChars_ten_toDigits] using hval

/-- What `Display` writes is read back. -/
theorem parseUnsigned_toDigits {limit n : Nat} (h : n < limit) :
    parseUnsigned limit (Nat.toDigits 10 n) = some n :=
  parseUnsigned_eq_some_iff.2
    ⟨.digits _ Nat.toDigits_ne_nil (fun _ => isDigit_of_mem_toDigits)
      Nat.ofDigitChars_ten_toDigits, h⟩

/-! ## Letters -/

theorem isAlpha_eq_false_iff {c : Char} :
    c.isAlpha = false ↔ ¬(65 ≤ c.toNat ∧ c.toNat ≤ 90) ∧ ¬(97 ≤ c.toNat ∧ c.toNat ≤ 122) := by
  have hupper : c.isUpper = true ↔ 65 ≤ c.toNat ∧ c.toNat ≤ 90 := by
    have hdef : c.isUpper = decide (c.val ≥ 'A'.val ∧ c.val ≤ 'Z'.val) := rfl
    rw [hdef, decide_eq_true_iff]
    exact Iff.rfl
  have hlower : c.isLower = true ↔ 97 ≤ c.toNat ∧ c.toNat ≤ 122 := by
    have hdef : c.isLower = (decide (c.val ≥ 'a'.val) && decide (c.val ≤ 'z'.val)) := rfl
    rw [hdef, Bool.and_eq_true, decide_eq_true_iff, decide_eq_true_iff]
    exact Iff.rfl
  have hdef : c.isAlpha = (c.isUpper || c.isLower) := rfl
  rw [hdef, Bool.or_eq_false_iff, ← hupper, ← hlower, Bool.not_eq_true, Bool.not_eq_true]

theorem isAlpha_of_isWhitespace {c : Char} (h : isWhitespace c = true) : c.isAlpha = false := by
  rw [isAlpha_eq_false_iff]
  simp only [isWhitespace, Bool.or_eq_true, Bool.and_eq_true, decide_eq_true_eq, beq_iff_eq] at h
  omega

theorem isAlpha_of_isDigit {c : Char} (h : c.isDigit = true) : c.isAlpha = false := by
  have h' : 48 ≤ c.toNat ∧ c.toNat ≤ 57 := Char.isDigit_iff_toNat.1 h
  rw [isAlpha_eq_false_iff]
  omega

theorem isWhitespace_of_isDigit {c : Char} (h : c.isDigit = true) : isWhitespace c = false := by
  have h' : 48 ≤ c.toNat ∧ c.toNat ≤ 57 := Char.isDigit_iff_toNat.1 h
  rw [Bool.eq_false_iff]
  intro hw
  simp only [isWhitespace, Bool.or_eq_true, Bool.and_eq_true, decide_eq_true_eq, beq_iff_eq] at hw
  omega

theorem isWhitespace_of_isAlpha {c : Char} (h : c.isAlpha = true) : isWhitespace c = false := by
  rw [Bool.eq_false_iff]
  intro hw
  rw [isAlpha_of_isWhitespace hw] at h
  cases h

theorem toLower_of_isAlpha {c : Char} (h : c.isAlpha = false) : c.toLower = c := by
  have h' := (isAlpha_eq_false_iff.1 h).1
  exact dif_neg h'

theorem toLower_of_upper {c : Char} (h : 65 ≤ c.toNat ∧ c.toNat ≤ 90) :
    c.toLower.toNat = c.toNat + 32 := by
  have h' : c.val ≥ 'A'.val ∧ c.val ≤ 'Z'.val := h
  have hle : c.val.toNat + 32 < 2 ^ 32 := by
    have : c.val.toNat = c.toNat := rfl
    omega
  unfold Char.toLower
  rw [dif_pos h']
  show (c.val + 32).toNat = _
  rw [UInt32.toNat_add]
  exact Nat.mod_eq_of_lt hle

theorem isAlpha_toLower (c : Char) : c.toLower.isAlpha = c.isAlpha := by
  by_cases hc : 65 ≤ c.toNat ∧ c.toNat ≤ 90
  · have hl := toLower_of_upper hc
    rw [Bool.eq_iff_iff, ← Bool.not_eq_false, ← Bool.not_eq_false, not_iff_not,
      isAlpha_eq_false_iff, isAlpha_eq_false_iff]
    omega
  · have hl : c.toLower = c := dif_neg hc
    rw [hl]
/-- Text without letters is all its own lower case. -/
theorem map_toLower_eq_iff {s t : List Char} (h : ∀ c ∈ t, c.isAlpha = false) :
    s.map Char.toLower = t ↔ s = t := by
  induction t generalizing s with
  | nil => exact List.map_eq_nil_iff
  | cons d t ih =>
    have hd := h d List.mem_cons_self
    rw [List.map_eq_cons_iff]
    constructor
    · rintro ⟨c, s, rfl, hc, hs⟩
      have hca : c.isAlpha = false := by rw [← isAlpha_toLower, hc, hd]
      rw [← hc, toLower_of_isAlpha hca, (ih fun c hm => h c (List.mem_cons_of_mem _ hm)).1 hs]
    · rintro rfl
      exact ⟨d, t, rfl, toLower_of_isAlpha hd,
        (ih fun c hm => h c (List.mem_cons_of_mem _ hm)).2 rfl⟩

theorem isAlpha_of_blank {s : List Char} (h : Blank s) : ∀ c ∈ s, c.isAlpha = false :=
  fun c hc => isAlpha_of_isWhitespace (h c hc)

/-! ## Numerals in longer text -/

theorem Numeral.isAlpha {n : Nat} {s : List Char} (h : Numeral n s) :
    ∀ c ∈ s, c.isAlpha = false := by
  intro c hc
  cases h with
  | digits _ _ hd => exact isAlpha_of_isDigit (hd c hc)
  | plus _ _ hd =>
    rcases List.mem_cons.1 hc with rfl | hc
    · decide
    · exact isAlpha_of_isDigit (hd c hc)

theorem Numeral.head {n : Nat} {s : List Char} (h : Numeral n s) :
    ∃ c t, s = c :: t ∧ isWhitespace c = false := by
  cases h with
  | digits _ hne hd =>
    obtain ⟨c, t, rfl⟩ := List.exists_cons_of_ne_nil hne
    exact ⟨c, t, rfl, isWhitespace_of_isDigit (hd c List.mem_cons_self)⟩
  | plus ds => exact ⟨'+', ds, rfl, by decide⟩

theorem Numeral.last {n : Nat} {s : List Char} (h : Numeral n s) :
    ∃ t c, s = t ++ [c] ∧ c.isDigit = true := by
  cases h with
  | digits _ hne hd =>
    exact ⟨_, _, (List.dropLast_concat_getLast hne).symm, hd _ (List.getLast_mem hne)⟩
  | plus ds hne hd =>
    refine ⟨'+' :: ds.dropLast, _, ?_, hd _ (List.getLast_mem hne)⟩
    rw [List.cons_append, List.dropLast_concat_getLast]

theorem trimmed_of_ends {c d : Char} {s t u : List Char} (hs : s = c :: t) (hu : s = u ++ [d])
    (hc : isWhitespace c = false) (hd : isWhitespace d = false) : Trimmed s := by
  constructor
  · rw [hs]
    exact fun _ h => Option.some.inj h ▸ hc
  · rw [hu, List.getLast?_concat]
    exact fun _ h => Option.some.inj h ▸ hd

theorem Numeral.trimmed {n : Nat} {s : List Char} (h : Numeral n s) : Trimmed s := by
  obtain ⟨c, t, hs, hc⟩ := h.head
  obtain ⟨u, d, hu, hd⟩ := h.last
  exact trimmed_of_ends hs hu hc (isWhitespace_of_isDigit hd)

/-! ## Bytes -/

/-- `str::as_bytes`; `str::len` is its length. -/
def utf8 (s : String) : Bytes := s.toList.flatMap String.utf8EncodeChar

theorem toByteArray_utf8 (s : String) : (utf8 s).toByteArray = s.toByteArray := by
  have h : (String.ofList s.toList).toByteArray = s.toList.utf8Encode := String.toByteArray_ofList
  rw [String.ofList_toList] at h
  rw [h]
  rfl

theorem utf8_inj {s t : String} : utf8 s = utf8 t ↔ s = t := by
  refine ⟨fun h => ?_, fun h => h ▸ rfl⟩
  rw [← String.toByteArray_inj, ← toByteArray_utf8, ← toByteArray_utf8, h]

theorem utf8_append (s t : String) : utf8 (s ++ t) = utf8 s ++ utf8 t := by simp [utf8]

theorem utf8EncodeChar_of_ascii {c : Char} (h : c.toNat < 128) :
    String.utf8EncodeChar c = [.ofNat c.toNat] := if_pos (Nat.le_of_lt_succ h)

theorem utf8_ofAscii {bs : Bytes} (h : ∀ b ∈ bs, b.toNat < 128) :
    utf8 (.ofList (bs.map fun b => .ofNat b.toNat)) = bs := by
  induction bs with
  | nil => rfl
  | cons b bs ih =>
    have hb := h b List.mem_cons_self
    have hv : b.toNat.isValidChar := .inl (by omega)
    have hn : (Char.ofNat b.toNat).toNat = b.toNat := by
      rw [Char.ofNat, dif_pos hv]
      rfl
    have hc : String.utf8EncodeChar (.ofNat b.toNat) = [b] := by
      rw [utf8EncodeChar_of_ascii (by omega), hn, UInt8.ofNat_toNat]
    have ih := ih fun c hc => h c (List.mem_cons_of_mem _ hc)
    simp only [utf8, String.toList_ofList, List.map_cons, List.flatMap_cons] at ih ⊢
    rw [hc, ih]
    rfl

end Hoprd.Text
