import Hoprd.Text

/-!
# The answer to `tryGetTarget` (`localcluster/src/curvy_grant.rs`)

The answer is text from an RPC endpoint. `decodeTryGetTarget` counts its bytes, cuts it
at byte 64 and then asks for hex digits: a character that lies across the cut ends it in
a panic, and characters of several bytes make the text look longer than it is.

* `decode_exact_iff`: otherwise the decoding is total and reads the first word.
* `cut_character_panics`: an answer that panics.
-/
namespace Hoprd.CurvyGrant

open Hoprd.Text

/-! ## The code -/

/-- `str::as_bytes` of characters. -/
def bytes (s : List Char) : Bytes := s.flatMap String.utf8EncodeChar

/-- `&s[..n]`: `none` is the panic when byte `n` starts no character. -/
def sliceTo : Nat → List Char → Option (List Char)
  | 0, _ => some []
  | _ + 1, [] => none
  | n + 1, c :: s =>
    if c.utf8Size ≤ n + 1 then (sliceTo (n + 1 - c.utf8Size) s).map (c :: ·) else none

/-- `0-9`, `A-F` or `a-f`, by its code. -/
def isHexCode (n : Nat) : Bool :=
  (0x30 ≤ n && n ≤ 0x39) || (0x41 ≤ n && n ≤ 0x46) || (0x61 ≤ n && n ≤ 0x66)

/-- `u8::is_ascii_hexdigit`. -/
def isAsciiHexdigit (b : UInt8) : Bool := isHexCode b.toNat

/-- `returned.strip_prefix("0x").unwrap_or(returned)` -/
def stripHexPrefix : List Char → List Char
  | '0' :: 'x' :: hex => hex
  | hex => hex

inductive Decoded where
  | ok (isScoped : Bool)
  | error (text : String)
  | panic
  deriving DecidableEq, Repr

/-- mirrors localcluster/src/curvy_grant.rs:153-166 -/
def decodeTryGetTarget (returned : String) : Decoded :=
  let hex := stripHexPrefix returned.toList
  let len := (bytes hex).length
  if len < 128 then
    .error ("tryGetTarget returned " ++ toString len ++ " hex chars, expected 128")
  else
    match sliceTo 64 hex with
    | none => .panic
    | some word =>
      if (bytes word).all isAsciiHexdigit then
        .ok (word.dropWhile (· == '0') == ['1'])
      else .error "tryGetTarget returned non-hex data"

/-! ## What it is for -/

def isHexdigit (c : Char) : Bool := isHexCode c.toNat

def digitValue (c : Char) : Nat :=
  if c.toNat ≤ 0x39 then c.toNat - 0x30
  else if c.toNat ≤ 0x46 then c.toNat - 0x41 + 10
  else c.toNat - 0x61 + 10

/-- The number that hex digits write, the first digit first. -/
def hexValue : List Char → Nat
  | [] => 0
  | c :: s => digitValue c * 16 ^ s.length + hexValue s

/-- Two words, of which the first is in hex. -/
structure Words (hex : List Char) : Prop where
  length : 128 ≤ hex.length
  digits : ∀ c ∈ hex.take 64, isHexdigit c = true

structure Exact (returned : String) : Prop where
  total : decodeTryGetTarget returned ≠ .panic
  accepts : (∃ isScoped, decodeTryGetTarget returned = .ok isScoped) ↔
    Words (stripHexPrefix returned.toList)
  value : ∀ isScoped, decodeTryGetTarget returned = .ok isScoped →
    (isScoped = true ↔ hexValue ((stripHexPrefix returned.toList).take 64) = 1)

/-- No character lies across the cut. -/
def CutFits (hex : List Char) : Prop := ∃ word rest, hex = word ++ rest ∧ (bytes word).length = 64

/-- Too short, or cut between characters and as long as it looks. -/
def Plain (hex : List Char) : Prop :=
  (bytes hex).length < 128 ∨
    (CutFits hex ∧ ((∀ c ∈ hex.take 64, isHexdigit c = true) → 128 ≤ hex.length))

/-! ## Bytes and characters -/

theorem bytes_cons (c : Char) (s : List Char) :
    (bytes (c :: s)).length = c.utf8Size + (bytes s).length := by
  simp [bytes]

theorem length_le_bytes (s : List Char) : s.length ≤ (bytes s).length := by
  induction s with
  | nil => exact Nat.le_refl _
  | cons c s ih =>
    have := c.utf8Size_pos
    rw [bytes_cons, List.length_cons]
    omega

theorem isHexCode_iff {n : Nat} : isHexCode n = true ↔
    (0x30 ≤ n ∧ n ≤ 0x39) ∨ (0x41 ≤ n ∧ n ≤ 0x46) ∨ (0x61 ≤ n ∧ n ≤ 0x66) := by
  simp [isHexCode, or_assoc]

/-- Bytes of a character that is not ASCII are not ASCII. -/
theorem not_ascii_byte {c : Char} (h : 128 ≤ c.toNat) :
    ∀ b ∈ String.utf8EncodeChar c, 128 ≤ b.toNat := by
  have hv : ¬ c.val.toNat ≤ 0x7f := by
    have : c.val.toNat = c.toNat := rfl
    omega
  unfold String.utf8EncodeChar
  simp only [if_neg hv]
  intro b hb
  split at hb
  · simp only [List.mem_cons, List.not_mem_nil, or_false] at hb
    rcases hb with rfl | rfl <;> rw [UInt8.toNat_ofNat'] <;> omega
  · split at hb
    · simp only [List.mem_cons, List.not_mem_nil, or_false] at hb
      rcases hb with rfl | rfl | rfl <;> rw [UInt8.toNat_ofNat'] <;> omega
    · simp only [List.mem_cons, List.not_mem_nil, or_false] at hb
      rcases hb with rfl | rfl | rfl | rfl <;> rw [UInt8.toNat_ofNat'] <;> omega

theorem all_bytes_isHexdigit (c : Char) :
    (String.utf8EncodeChar c).all isAsciiHexdigit = isHexdigit c := by
  by_cases hc : c.toNat < 128
  · have hn : (UInt8.ofNat c.toNat).toNat = c.toNat := by
      rw [UInt8.toNat_ofNat']
      omega
    rw [utf8EncodeChar_of_ascii hc]
    simp [isAsciiHexdigit, isHexdigit, hn]
  · have hnot : isHexdigit c = false := by
      rw [Bool.eq_false_iff]
      intro hh
      have := isHexCode_iff.1 hh
      omega
    rw [hnot, List.all_eq_false]
    have hne : String.utf8EncodeChar c ≠ [] := by
      have := c.utf8Size_pos
      rw [← String.length_utf8EncodeChar] at this
      exact List.length_pos_iff.1 this
    obtain ⟨b, t, hb⟩ := List.exists_cons_of_ne_nil hne
    have hmem : b ∈ String.utf8EncodeChar c := hb ▸ List.mem_cons_self
    refine ⟨b, hmem, fun hh => ?_⟩
    have hge := not_ascii_byte (Nat.le_of_not_lt hc) b hmem
    have := isHexCode_iff.1 hh
    omega

theorem all_isAsciiHexdigit (s : List Char) :
    (bytes s).all isAsciiHexdigit = s.all isHexdigit := by
  induction s with
  | nil => rfl
  | cons c s ih =>
    have hc : bytes (c :: s) = String.utf8EncodeChar c ++ bytes s := rfl
    rw [hc, List.all_append, ih, all_bytes_isHexdigit, List.all_cons]

/-- Hex digits are one byte each. -/
theorem length_bytes_of_hex {s : List Char} (h : ∀ c ∈ s, isHexdigit c = true) :
    (bytes s).length = s.length := by
  induction s with
  | nil => rfl
  | cons c s ih =>
    have hc : c.toNat < 128 := by
      have := isHexCode_iff.1 (h c List.mem_cons_self)
      omega
    have hsize : c.utf8Size = 1 := by
      rw [← String.length_utf8EncodeChar, utf8EncodeChar_of_ascii hc]
      rfl
    rw [bytes_cons, hsize, ih fun d hd => h d (List.mem_cons_of_mem _ hd), List.length_cons]
    omega

/-! ## The cut -/

theorem sliceTo_eq_some_iff {n : Nat} {s word : List Char} :
    sliceTo n s = some word ↔ (∃ rest, s = word ++ rest) ∧ (bytes word).length = n := by
  constructor
  · intro h
    induction n, s using sliceTo.induct generalizing word with
    | case1 s =>
      rw [sliceTo] at h
      cases h
      exact ⟨⟨s, rfl⟩, rfl⟩
    | case2 n => cases h
    | case3 n c s hfit ih =>
      rw [sliceTo, if_pos hfit] at h
      obtain ⟨word', hword', rfl⟩ := Option.map_eq_some_iff.1 h
      obtain ⟨⟨rest, rfl⟩, hlen⟩ := ih hword'
      refine ⟨⟨rest, rfl⟩, ?_⟩
      rw [bytes_cons, hlen]
      omega
    | case4 n c s hfit =>
      rw [sliceTo, if_neg hfit] at h
      cases h
  · rintro ⟨⟨rest, rfl⟩, rfl⟩
    induction word with
    | nil => rw [show (bytes []).length = 0 from rfl, sliceTo]
    | cons c word ih =>
      have hpos := c.utf8Size_pos
      obtain ⟨n, hn⟩ : ∃ n, (bytes (c :: word)).length = n + 1 :=
        ⟨(bytes (c :: word)).length - 1, by rw [bytes_cons]; omega⟩
      have hrest : n + 1 - c.utf8Size = (bytes word).length := by
        rw [← hn, bytes_cons]
        omega
      have hfit : c.utf8Size ≤ n + 1 := by
        rw [← hn, bytes_cons]
        omega
      rw [hn, List.cons_append, sliceTo, if_pos hfit, hrest, ih]
      rfl

theorem cutFits_iff {hex : List Char} : CutFits hex ↔ ∃ word, sliceTo 64 hex = some word := by
  simp only [CutFits, sliceTo_eq_some_iff, exists_and_right]

/-- When the cut part is all hex digits, it is the first 64 characters. -/
theorem take_of_slice {hex word : List Char} (h : sliceTo 64 hex = some word)
    (hword : ∀ c ∈ word, isHexdigit c = true) : hex.take 64 = word := by
  obtain ⟨⟨rest, rfl⟩, hlen⟩ := sliceTo_eq_some_iff.1 h
  rw [length_bytes_of_hex hword] at hlen
  rw [← hlen, List.take_left]

/-- And the other way round, when there are as many. -/
theorem slice_of_take {hex : List Char} (hlen : 64 ≤ hex.length)
    (hhex : ∀ c ∈ hex.take 64, isHexdigit c = true) : sliceTo 64 hex = some (hex.take 64) := by
  refine sliceTo_eq_some_iff.2 ⟨⟨hex.drop 64, (List.take_append_drop 64 hex).symm⟩, ?_⟩
  rw [length_bytes_of_hex hhex, List.length_take, Nat.min_eq_left hlen]

/-! ## The number -/

theorem digitValue_eq_zero_iff {c : Char} (h : isHexdigit c = true) :
    digitValue c = 0 ↔ c = '0' := by
  have hc : c = '0' ↔ c.toNat = 0x30 := by
    rw [← Char.toNat_inj]
    exact Iff.rfl
  have := isHexCode_iff.1 h
  rw [hc]
  unfold digitValue
  split
  · omega
  · split <;> omega

theorem digitValue_eq_one_iff {c : Char} (h : isHexdigit c = true) :
    digitValue c = 1 ↔ c = '1' := by
  have hc : c = '1' ↔ c.toNat = 0x31 := by
    rw [← Char.toNat_inj]
    exact Iff.rfl
  have := isHexCode_iff.1 h
  rw [hc]
  unfold digitValue
  split
  · omega
  · split <;> omega

theorem hexValue_eq_one_iff {s : List Char} (h : ∀ c ∈ s, isHexdigit c = true) :
    hexValue s = 1 ↔ s.dropWhile (· == '0') = ['1'] := by
  induction s with
  | nil => simp [hexValue]
  | cons c s ih =>
    have hc := h c List.mem_cons_self
    have hs := ih fun d hd => h d (List.mem_cons_of_mem _ hd)
    by_cases hzero : c = '0'
    · have hd := (digitValue_eq_zero_iff hc).2 hzero
      rw [hexValue, hd, Nat.zero_mul, Nat.zero_add, hs,
        List.dropWhile_cons_of_pos (by simp [hzero])]
    · have hd : digitValue c ≠ 0 := fun h0 => hzero ((digitValue_eq_zero_iff hc).1 h0)
      rw [List.dropWhile_cons_of_neg (by simp [hzero]), hexValue, List.cons.injEq,
        ← digitValue_eq_one_iff hc]
      cases s with
      | nil => simp [hexValue]
      | cons d s =>
        -- the first digit alone is too much
        have hpow : 16 ≤ 16 ^ (d :: s).length := by
          rw [List.length_cons]
          exact Nat.le_self_pow (Nat.succ_ne_zero _) 16
        have hbig : 16 ≤ digitValue c * 16 ^ (d :: s).length :=
          Nat.le_trans hpow (Nat.le_mul_of_pos_left _ (Nat.pos_of_ne_zero hd))
        simp only [reduceCtorEq, and_false, iff_false]
        omega

/-! ## The result -/

section
variable {returned : String}

theorem decode_short (h : (bytes (stripHexPrefix returned.toList)).length < 128) :
    ∃ text, decodeTryGetTarget returned = .error text :=
  ⟨_, if_pos h⟩

theorem decode_long (h : 128 ≤ (bytes (stripHexPrefix returned.toList)).length) :
    decodeTryGetTarget returned =
      match sliceTo 64 (stripHexPrefix returned.toList) with
      | none => .panic
      | some word =>
        if (bytes word).all isAsciiHexdigit then
          .ok (word.dropWhile (· == '0') == ['1'])
        else .error "tryGetTarget returned non-hex data" :=
  if_neg (Nat.not_lt_of_le h)

theorem decode_cut (h : 128 ≤ (bytes (stripHexPrefix returned.toList)).length)
    (hcut : ¬ CutFits (stripHexPrefix returned.toList)) :
    decodeTryGetTarget returned = .panic := by
  have hnone : sliceTo 64 (stripHexPrefix returned.toList) = none := by
    cases hs : sliceTo 64 (stripHexPrefix returned.toList) with
    | none => rfl
    | some word => exact (hcut (cutFits_iff.2 ⟨word, hs⟩)).elim
  rw [decode_long h, hnone]

theorem exact_of_error {text : String} (hd : decodeTryGetTarget returned = .error text)
    (h : ¬ Words (stripHexPrefix returned.toList)) : Exact returned := by
  refine ⟨?_, ⟨?_, fun hw => (h hw).elim⟩, ?_⟩
  · rw [hd]
    exact Decoded.noConfusion
  · rintro ⟨_, he⟩
    rw [hd] at he
    cases he
  · intro isScoped he
    rw [hd] at he
    cases he

theorem exact_short (h : (bytes (stripHexPrefix returned.toList)).length < 128) :
    Exact returned := by
  obtain ⟨text, hd⟩ := decode_short h
  refine exact_of_error hd fun hw => ?_
  have := length_le_bytes (stripHexPrefix returned.toList)
  have := hw.length
  omega

/-- Cut between characters, the decoding fails on anything but digits. -/
theorem decode_word {word : List Char}
    (h : 128 ≤ (bytes (stripHexPrefix returned.toList)).length)
    (hs : sliceTo 64 (stripHexPrefix returned.toList) = some word) :
    (∃ text, decodeTryGetTarget returned = .error text ∧
      ¬ ∀ c ∈ (stripHexPrefix returned.toList).take 64, isHexdigit c = true) ∨
    ((∀ c ∈ (stripHexPrefix returned.toList).take 64, isHexdigit c = true) ∧
      decodeTryGetTarget returned =
        .ok (decide (hexValue ((stripHexPrefix returned.toList).take 64) = 1))) := by
  rw [decode_long h, hs]
  by_cases hhex : ∀ c ∈ word, isHexdigit c = true
  · have htake := take_of_slice hs hhex
    have hall : (bytes word).all isAsciiHexdigit = true := by
      rw [all_isAsciiHexdigit]
      exact List.all_eq_true.2 hhex
    refine .inr ⟨htake.symm ▸ hhex, ?_⟩
    simp only [hall, if_true, Decoded.ok.injEq]
    rw [htake, Bool.eq_iff_iff, beq_iff_eq, decide_eq_true_iff, hexValue_eq_one_iff hhex]
  · have hall : (bytes word).all isAsciiHexdigit = false := by
      rw [all_isAsciiHexdigit, List.all_eq_false]
      simpa using hhex
    simp only [hall, Bool.false_eq_true, if_false]
    refine .inl ⟨_, rfl, fun htake => hhex ?_⟩
    -- the first 64 characters would be the cut part
    by_cases hlen : 64 ≤ (stripHexPrefix returned.toList).length
    · have hslice := slice_of_take hlen htake
      rw [hs] at hslice
      exact Option.some.inj hslice ▸ htake
    · have hshort : (stripHexPrefix returned.toList).take 64 = stripHexPrefix returned.toList :=
        List.take_of_length_le (by omega)
      rw [hshort] at htake
      have := length_bytes_of_hex htake
      omega

/-- **Exactly the plain answers are decoded as they should be.** -/
theorem decode_exact_iff (returned : String) :
    Exact returned ↔ Plain (stripHexPrefix returned.toList) := by
  by_cases hshort : (bytes (stripHexPrefix returned.toList)).length < 128
  · exact ⟨fun _ => .inl hshort, fun _ => exact_short hshort⟩
  have hlong := Nat.le_of_not_lt hshort
  by_cases hcut : CutFits (stripHexPrefix returned.toList)
  · obtain ⟨word, hs⟩ := cutFits_iff.1 hcut
    rcases decode_word hlong hs with ⟨text, hd, hhex⟩ | ⟨hhex, hd⟩
    · exact ⟨fun _ => .inr ⟨hcut, fun h => (hhex h).elim⟩,
        fun _ => exact_of_error hd fun hw => hhex hw.digits⟩
    · constructor
      · exact fun h => .inr ⟨hcut, fun _ => (h.accepts.1 ⟨_, hd⟩).length⟩
      · rintro (h | ⟨-, h⟩)
        · exact (hshort h).elim
        · refine ⟨?_, ⟨fun _ => ⟨h hhex, hhex⟩, fun _ => ⟨_, hd⟩⟩, fun isScoped he => ?_⟩
          · rw [hd]
            exact Decoded.noConfusion
          · rw [hd] at he
            cases he
            exact decide_eq_true_iff
  · constructor
    · exact fun h => (h.total (decode_cut hlong hcut)).elim
    · rintro (h | ⟨h, -⟩)
      · exact (hshort h).elim
      · exact (hcut h).elim

end

/-- 63 zeros, a character of two bytes and 63 zeros. -/
def cutHex : List Char := List.replicate 63 '0' ++ 'é' :: List.replicate 63 '0'

/-- Byte 64 is inside the character. -/
theorem cut_character_panics :
    decodeTryGetTarget (.ofList ('0' :: 'x' :: cutHex)) = .panic ∧
      ¬ ∀ returned : String, Exact returned := by
  have hhex : stripHexPrefix (String.ofList ('0' :: 'x' :: cutHex)).toList = cutHex := by
    rw [String.toList_ofList]
    rfl
  have hlong : 128 ≤ (bytes cutHex).length := by decide +kernel
  have hslice : sliceTo 64 cutHex = none := by decide +kernel
  have hpanic : decodeTryGetTarget (.ofList ('0' :: 'x' :: cutHex)) = .panic := by
    rw [decode_long (by rw [hhex]; exact hlong), hhex, hslice]
  exact ⟨hpanic, fun h => (h _).total hpanic⟩

end Hoprd.CurvyGrant
