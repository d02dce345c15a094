import Mathlib.Data.List.Basic

/-!
# Base64 with the URL-safe alphabet

Three octets as four characters, the last group padded with `=`. `decode` takes
canonical text only: complete padding and no bits set after the last octet.

* `decode_encode`: what is encoded is decoded.
-/
namespace Core.Base64

/-- The character of a sextet. -/
def symbol (i : Nat) : Char :=
  if i < 26 then .ofNat (65 + i)
  else if i < 52 then .ofNat (71 + i)
  else if i < 62 then .ofNat (i - 4)
  else if i = 62 then '-' else '_'

def sextet (c : Char) : Option Nat :=
  if 'A' ≤ c ∧ c ≤ 'Z' then some (c.toNat - 65)
  else if 'a' ≤ c ∧ c ≤ 'z' then some (c.toNat - 71)
  else if '0' ≤ c ∧ c ≤ '9' then some (c.toNat + 4)
  else if c = '-' then some 62 else if c = '_' then some 63 else none

def encode : List UInt8 → List Char
  | [] => []
  | [a] =>
    let n := a.toNat * 16
    [symbol (n / 64), symbol (n % 64), '=', '=']
  | [a, b] =>
    let n := (a.toNat * 256 + b.toNat) * 4
    [symbol (n / 4096), symbol (n / 64 % 64), symbol (n % 64), '=']
  | a :: b :: c :: rest =>
    let n := (a.toNat * 256 + b.toNat) * 256 + c.toNat
    symbol (n / 262144) :: symbol (n / 4096 % 64) :: symbol (n / 64 % 64) :: symbol (n % 64) ::
      encode rest

/-- The value of a group of characters, the first the most significant. -/
def groupValue : List Char → Nat → Option Nat
  | [], n => some n
  | c :: cs, n => (sextet c).bind fun d => groupValue cs (n * 64 + d)

def decode : List Char → Option (List UInt8)
  | [] => some []
  | w :: x :: y :: z :: rest =>
    if y = '=' ∧ z = '=' ∧ rest = [] then do
      let n ← groupValue [w, x] 0
      if n % 16 = 0 then return [.ofNat (n / 16)] else none
    else if z = '=' ∧ rest = [] then do
      let n ← groupValue [w, x, y] 0
      if n % 4 = 0 then return [.ofNat (n / 1024), .ofNat (n / 4)] else none
    else do
      let n ← groupValue [w, x, y, z] 0
      let bytes ← decode rest
      return .ofNat (n / 65536) :: .ofNat (n / 256) :: .ofNat n :: bytes
  | _ => none

theorem sextet_symbol : ∀ i < 64, sextet (symbol i) = some i := by decide

theorem symbol_ne_padding : ∀ i < 64, symbol i ≠ '=' := by decide

theorem groupValue_symbol_cons {i : Nat} (hi : i < 64) (cs : List Char) (n : Nat) :
    groupValue (symbol i :: cs) n = groupValue cs (n * 64 + i) := by
  rw [groupValue, sextet_symbol i hi]
  rfl

theorem ofNat_eq {n : Nat} {a : UInt8} (h : n % 256 = a.toNat) : UInt8.ofNat n = a := by
  apply UInt8.toNat_inj.1
  rw [UInt8.toNat_ofNat']
  exact h

theorem decode_encode (bytes : List UInt8) : decode (encode bytes) = some bytes := by
  induction bytes using encode.induct with
  | case1 => rfl
  | case2 a =>
    have ha := a.toNat_lt
    have hg : groupValue [symbol (a.toNat * 16 / 64), symbol (a.toNat * 16 % 64)] 0 =
        some (a.toNat * 16) := by
      rw [groupValue_symbol_cons (by omega), groupValue_symbol_cons (by omega), groupValue]
      congr 1
      omega
    have hmod : a.toNat * 16 % 16 = 0 := by omega
    simp [encode, decode, hg, hmod]
  | case3 a b =>
    have ha := a.toNat_lt
    have hb := b.toNat_lt
    simp only [encode]
    generalize hn : (a.toNat * 256 + b.toNat) * 4 = n
    have hg : groupValue [symbol (n / 4096), symbol (n / 64 % 64), symbol (n % 64)] 0 = some n := by
      rw [groupValue_symbol_cons (by omega), groupValue_symbol_cons (by omega),
        groupValue_symbol_cons (by omega), groupValue]
      congr 1
      omega
    have hpad : symbol (n % 64) ≠ '=' := symbol_ne_padding _ (by omega)
    have hmod : n % 4 = 0 := by omega
    have h1 : UInt8.ofNat (n / 1024) = a := ofNat_eq (by omega)
    have h2 : UInt8.ofNat (n / 4) = b := ofNat_eq (by omega)
    simp [decode, hpad, hg, hmod, h1, h2]
  | case4 a b c rest ih =>
    have ha := a.toNat_lt
    have hb := b.toNat_lt
    have hc := c.toNat_lt
    simp only [encode]
    generalize hn : (a.toNat * 256 + b.toNat) * 256 + c.toNat = n
    have hg : groupValue [symbol (n / 262144), symbol (n / 4096 % 64), symbol (n / 64 % 64),
        symbol (n % 64)] 0 = some n := by
      rw [groupValue_symbol_cons (by omega), groupValue_symbol_cons (by omega),
        groupValue_symbol_cons (by omega), groupValue_symbol_cons (by omega), groupValue]
      congr 1
      omega
    have hpad : symbol (n % 64) ≠ '=' := symbol_ne_padding _ (by omega)
    have h1 : UInt8.ofNat (n / 65536) = a := ofNat_eq (by omega)
    have h2 : UInt8.ofNat (n / 256) = b := ofNat_eq (by omega)
    have h3 : UInt8.ofNat n = c := ofNat_eq (by omega)
    simp [decode, hpad, hg, ih, h1, h2, h3]

end Core.Base64
