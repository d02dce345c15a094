import Mathlib.Data.List.Forall2
import Mathlib.Data.List.Induction
import Mathlib.Data.Nat.Digits.Defs

/-!
# Contract calls in the Ethereum ABI

The head/tail layout of a call's arguments: every argument has one 32-byte head
word, which of a dynamic argument is the offset of its tail; a tail is a length word
and the bytes, padded with zeros to full words; the tails follow the head in the
order of the arguments.

* `decode` reads the arguments and how many bytes they took. It is strict: a tail
  must start where the one before it ended and the padding must be zero, so the bytes
  it counts are a prefix of the input with no gap.
* `decode_encode`: what `encode` lays out is read back, to the last byte.
-/
namespace Core.Abi

abbrev Bytes := List UInt8

/-- `n` bytes. -/
structure Octets (n : Nat) where
  bytes : Bytes
  length_eq : bytes.length = n
  deriving DecidableEq

attribute [simp] Octets.length_eq

/-! ## Big-endian numbers -/

/-- The low `w` bytes of `n`, big-endian. -/
def be : Nat → Nat → Bytes
  | 0, _ => []
  | w + 1, n => be w (n / 256) ++ [UInt8.ofNat (n % 256)]

def ofBE (bs : Bytes) : Nat := Nat.ofDigits 256 (bs.reverse.map UInt8.toNat)

@[simp] theorem length_be (w n : Nat) : (be w n).length = w := by
  induction w generalizing n with
  | zero => rfl
  | succ w ih => simp [be, ih]

theorem ofBE_concat (bs : Bytes) (b : UInt8) : ofBE (bs ++ [b]) = b.toNat + 256 * ofBE bs := by
  simp [ofBE, Nat.ofDigits_cons]

theorem ofBE_be {w n : Nat} (h : n < 256 ^ w) : ofBE (be w n) = n := by
  induction w generalizing n with
  | zero =>
    have : n = 0 := by omega
    subst this
    rfl
  | succ w ih =>
    have hq : n / 256 < 256 ^ w := by
      rw [Nat.div_lt_iff_lt_mul (by omega)]
      rwa [Nat.pow_succ] at h
    rw [be, ofBE_concat, ih hq, UInt8.toNat_ofNat']
    omega

theorem be_ofBE (bs : Bytes) : be bs.length (ofBE bs) = bs := by
  induction bs using List.reverseRecOn with
  | nil => rfl
  | append_singleton bs b ih =>
    have hb : b.toNat < 256 := b.toNat_lt
    have hdiv : (b.toNat + 256 * ofBE bs) / 256 = ofBE bs := by omega
    have hmod : (b.toNat + 256 * ofBE bs) % 256 = b.toNat := by omega
    rw [ofBE_concat, List.length_append, List.length_singleton, be, hdiv, hmod, ih]
    simp

theorem ofBE_lt (bs : Bytes) : ofBE bs < 256 ^ bs.length := by
  unfold ofBE
  have h := Nat.ofDigits_lt_base_pow_length (by omega : 1 < 256)
    (fun x hx => by
      obtain ⟨b, -, rfl⟩ := List.mem_map.mp hx
      exact b.toNat_lt : ∀ x ∈ bs.reverse.map UInt8.toNat, x < 256)
  simpa using h

/-- Bytes above the number are zero. -/
theorem be_add {w n : Nat} (k : Nat) (h : n < 256 ^ w) :
    be (k + w) n = List.replicate k 0 ++ be w n := by
  induction w generalizing n with
  | zero =>
    have hn : n = 0 := by omega
    subst hn
    simp only [be, List.append_nil, Nat.add_zero]
    induction k with
    | zero => rfl
    | succ k ih =>
      rw [be, ih, List.replicate_succ']
      rfl
  | succ w ih =>
    have hq : n / 256 < 256 ^ w := by
      rw [Nat.div_lt_iff_lt_mul (by omega)]
      rwa [Nat.pow_succ] at h
    rw [← Nat.add_assoc, be, be, ih hq, List.append_assoc]

/-! ## Types and values -/

inductive Ty where
  | uint (bits : Nat)
  | address
  | bytes
  deriving DecidableEq, Repr

inductive Value where
  | uint (n : Nat)
  | address (a : Octets 20)
  | bytes (bs : Bytes)
  deriving DecidableEq

/-- The value is one of the type. -/
def Fits : Ty → Value → Prop
  | .uint bits, .uint n => n < 2 ^ bits ∧ bits ≤ 256
  | .address, .address _ => True
  | .bytes, .bytes bs => bs.length < 2 ^ 256
  | _, _ => False

/-! ## Layout -/

/-- Zeros to the next multiple of 32. -/
def padding (len : Nat) : Bytes := List.replicate ((32 - len % 32) % 32) 0

/-- The head word; `off` is where the argument's tail starts, should it have one. -/
def head (off : Nat) : Value → Bytes
  | .uint n => be 32 n
  | .address a => List.replicate 12 0 ++ a.bytes
  | .bytes _ => be 32 off

def tail : Value → Bytes
  | .bytes bs => be 32 bs.length ++ (bs ++ padding bs.length)
  | _ => []

def heads : Nat → List Value → Bytes
  | _, [] => []
  | off, v :: vs => head off v ++ heads (off + (tail v).length) vs

def encode (vs : List Value) : Bytes :=
  heads (32 * vs.length) vs ++ vs.flatMap tail

@[simp] theorem length_head (off : Nat) (v : Value) : (head off v).length = 32 := by
  cases v <;> simp [head]

theorem length_heads (off : Nat) (vs : List Value) : (heads off vs).length = 32 * vs.length := by
  induction vs generalizing off with
  | nil => rfl
  | cons v vs ih =>
    simp only [heads, List.length_append, length_head, ih, List.length_cons]
    omega

theorem length_tail_dvd (v : Value) : 32 ∣ (tail v).length := by
  cases v with
  | uint n => simp [tail]
  | address a => simp [tail]
  | bytes bs =>
    simp only [tail, padding, List.length_append, length_be, List.length_replicate]
    omega

/-- Arguments take whole words. -/
theorem length_encode_dvd (vs : List Value) : 32 ∣ (encode vs).length := by
  have htails : 32 ∣ (vs.flatMap tail).length := by
    induction vs with
    | nil => simp
    | cons v vs ih =>
      rw [List.flatMap_cons, List.length_append]
      exact Nat.dvd_add (length_tail_dvd v) ih
  rw [encode, List.length_append, length_heads]
  exact Nat.dvd_add (Nat.dvd_mul_right 32 _) htails

/-! ## Reading -/

/-- The word at a position, if the input reaches that far. -/
def readWord (buf : Bytes) (pos : Nat) : Option Bytes :=
  let w := (buf.drop pos).take 32
  if w.length = 32 then some w else none

/-- The bytes of a tail, and how long the tail is. -/
def readTail (buf : Bytes) (pos : Nat) : Option (Bytes × Nat) :=
  match readWord buf pos with
  | none => none
  | some w =>
    let len := ofBE w
    let rest := buf.drop (pos + 32)
    let pad := (32 - len % 32) % 32
    if len + pad ≤ rest.length ∧ (rest.drop len).take pad = padding len then
      some (rest.take len, 32 + len + pad)
    else none

/-- One argument, and the length of its tail, which has to start at `stop`. -/
def readArg (buf : Bytes) (pos stop : Nat) (t : Ty) : Option (Value × Nat) :=
  match readWord buf pos with
  | none => none
  | some w =>
    match t with
    | .uint bits => if ofBE w < 2 ^ bits then some (.uint (ofBE w), 0) else none
    | .address =>
      if h : w.take 12 = List.replicate 12 0 ∧ (w.drop 12).length = 20 then
        some (.address ⟨w.drop 12, h.2⟩, 0)
      else none
    | .bytes =>
      match readTail buf (ofBE w) with
      | none => none
      | some (bs, len) => if ofBE w = stop then some (.bytes bs, len) else none

def decodeArgs (buf : Bytes) : List Ty → Nat → Nat → Option (List Value × Nat)
  | [], _, stop => some ([], stop)
  | t :: ts, pos, stop =>
    match readArg buf pos stop t with
    | none => none
    | some (v, len) =>
      match decodeArgs buf ts (pos + 32) (stop + len) with
      | none => none
      | some (vs, stop') => some (v :: vs, stop')

/-- The arguments, and how many bytes of the input they took. -/
def decode (ts : List Ty) (buf : Bytes) : Option (List Value × Nat) :=
  decodeArgs buf ts 0 (32 * ts.length)

/-- A call: the function's selector and its arguments. -/
def decodeCall (selector : Octets 4) (ts : List Ty) (calldata : Bytes) :
    Option (List Value × Nat) :=
  if calldata.take 4 = selector.bytes then
    (decode ts (calldata.drop 4)).map fun (vs, len) => (vs, 4 + len)
  else none

/-! ## Reading back what was laid out -/

theorem readWord_append {w buf : Bytes} {pos : Nat} (hw : w.length = 32)
    (h : w <+: buf.drop pos) : readWord buf pos = some w := by
  obtain ⟨rest, hrest⟩ := h
  have htake : (buf.drop pos).take 32 = w := by
    rw [← hrest, ← hw]
    exact List.take_left
  simp [readWord, htake, hw]

theorem readTail_append {bs buf : Bytes} {pos : Nat} (hlen : bs.length < 2 ^ 256)
    (h : tail (.bytes bs) <+: buf.drop pos) :
    readTail buf pos = some (bs, (tail (.bytes bs)).length) := by
  obtain ⟨rest, hrest⟩ := h
  have hword : be 32 bs.length <+: buf.drop pos := by
    rw [← hrest, tail, List.append_assoc]
    exact List.prefix_append _ _
  have hbody : buf.drop (pos + 32) = bs ++ (padding bs.length ++ rest) := by
    rw [← List.drop_drop, ← hrest, tail, List.append_assoc,
      List.drop_left' (length_be 32 bs.length), List.append_assoc]
  have hread : ofBE (be 32 bs.length) = bs.length := ofBE_be (by omega)
  have hpad : (32 - bs.length % 32) % 32 = (padding bs.length).length := by simp [padding]
  unfold readTail
  rw [readWord_append (length_be 32 bs.length) hword]
  simp only [hread, hbody, hpad, List.drop_left, List.take_left, List.length_append, tail,
    length_be]
  rw [if_pos ⟨by omega, trivial⟩]
  simp [Nat.add_assoc]

theorem readArg_head {t : Ty} {v : Value} {buf : Bytes} {pos off : Nat} (hfits : Fits t v)
    (hoff : off < 2 ^ 256) (hhead : head off v <+: buf.drop pos)
    (htail : tail v <+: buf.drop off) : readArg buf pos off t = some (v, (tail v).length) := by
  unfold readArg
  rw [readWord_append (length_head off v) hhead]
  cases v with
  | uint n =>
    cases t with
    | address => exact hfits.elim
    | bytes => exact hfits.elim
    | uint bits =>
      obtain ⟨hn, hbits⟩ := hfits
      have hword : n < 256 ^ 32 :=
        lt_of_lt_of_le hn (by simpa using Nat.pow_le_pow_right (by omega : 0 < 2) hbits)
      simp [head, tail, ofBE_be hword, hn]
  | address a =>
    cases t with
    | uint bits => exact hfits.elim
    | bytes => exact hfits.elim
    | address =>
      have hzeros : (List.replicate 12 (0 : UInt8) ++ a.bytes).take 12 = List.replicate 12 0 :=
        List.take_left' List.length_replicate
      have haddr : (List.replicate 12 (0 : UInt8) ++ a.bytes).drop 12 = a.bytes :=
        List.drop_left' List.length_replicate
      simp only [head, tail, hzeros, haddr, a.length_eq, and_self, dite_true, List.length_nil]
  | bytes bs =>
    cases t with
    | uint bits => exact hfits.elim
    | address => exact hfits.elim
    | bytes =>
      simp only [head, ofBE_be (show off < 256 ^ 32 by omega), readTail_append hfits htail,
        ite_true]

/-- The heads left to read start at `pos`, their tails at `off`. -/
theorem decodeArgs_heads {ts : List Ty} {vs : List Value} {buf : Bytes} {pos off : Nat}
    (hfits : List.Forall₂ Fits ts vs) (hoff : off + (vs.flatMap tail).length < 2 ^ 256)
    (hheads : heads off vs <+: buf.drop pos) (htails : vs.flatMap tail <+: buf.drop off) :
    decodeArgs buf ts pos off = some (vs, off + (vs.flatMap tail).length) := by
  induction hfits generalizing pos off with
  | nil => rfl
  | @cons t v ts vs hfit hfits ih =>
    rw [List.flatMap_cons] at htails hoff
    rw [List.length_append] at hoff
    have harg : readArg buf pos off t = some (v, (tail v).length) := by
      apply readArg_head hfit (by omega)
      · exact (List.prefix_append _ _).trans hheads
      · exact (List.prefix_append _ _).trans htails
    have hheads' : heads (off + (tail v).length) vs <+: buf.drop (pos + 32) := by
      obtain ⟨rest, hrest⟩ := hheads
      refine ⟨rest, ?_⟩
      rw [← List.drop_drop, ← hrest, heads, List.append_assoc, List.drop_left' (length_head off v)]
    have htails' : vs.flatMap tail <+: buf.drop (off + (tail v).length) := by
      obtain ⟨rest, hrest⟩ := htails
      refine ⟨rest, ?_⟩
      rw [← List.drop_drop, ← hrest, List.append_assoc, List.drop_left]
    simp only [decodeArgs, harg, ih (by omega) hheads' htails', List.flatMap_cons,
      List.length_append, Nat.add_assoc]

/-- **Round trip.** The arguments that were laid out are read back, and reading them
consumes the layout to its last byte. -/
theorem decode_encode {ts : List Ty} {vs : List Value} (hfits : List.Forall₂ Fits ts vs)
    (hlen : (encode vs).length < 2 ^ 256) :
    decode ts (encode vs) = some (vs, (encode vs).length) := by
  have hsum : (encode vs).length = 32 * vs.length + (vs.flatMap tail).length := by
    rw [encode, List.length_append, length_heads]
  unfold decode
  rw [hfits.length_eq, hsum]
  apply decodeArgs_heads hfits (by omega)
  · exact List.prefix_append _ _
  · refine ⟨[], ?_⟩
    rw [List.append_nil, encode, List.drop_left' (length_heads _ vs)]

theorem decodeCall_encode {selector : Octets 4} {ts : List Ty} {vs : List Value}
    (hfits : List.Forall₂ Fits ts vs) (hlen : (encode vs).length < 2 ^ 256) :
    decodeCall selector ts (selector.bytes ++ encode vs) =
      some (vs, (selector.bytes ++ encode vs).length) := by
  unfold decodeCall
  rw [if_pos (List.take_left' selector.length_eq), List.drop_left' selector.length_eq,
    decode_encode hfits hlen]
  simp

end Core.Abi
