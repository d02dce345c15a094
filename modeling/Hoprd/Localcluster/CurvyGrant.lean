import Hoprd.Core.Abi

/-!
# Safe calldata of the Curvy grant (`localcluster/src/curvy_grant.rs`)

The grant is one call of a Safe's `execTransaction` whose inner call is the module's
`scopeTargetToken`. `encodeExecTransaction` lays the call out by hand;
`encodeExecTransaction_eq` shows it to be the ABI's layout of its ten arguments, and
`exec_transaction_decodes` reads both calls back.
-/
namespace Hoprd.CurvyGrant

open Core.Abi

abbrev Address := Octets 20

/-- A `&[u8]`: no slice is longer than `isize::MAX` bytes. -/
structure Slice where
  bytes : Bytes
  length_lt : bytes.length < 2 ^ 63

/-- `dst[start..].copy_from_slice(src)`. -/
def copyFrom (dst : Bytes) (start : Nat) (src : Bytes) : Bytes :=
  dst.take start ++ src ++ dst.drop (start + src.length)

/-- `Vec::resize`. -/
def resize (bs : Bytes) (n : Nat) (b : UInt8) : Bytes :=
  if n ≤ bs.length then bs.take n else bs ++ List.replicate (n - bs.length) b

/-- mirrors localcluster/src/curvy_grant.rs:45 -/
def scopeTargetTokenSelector : Octets 4 := ⟨[0xa7, 0x6c, 0x9a, 0x2f], rfl⟩

/-- mirrors localcluster/src/curvy_grant.rs:47 -/
def execTransactionSelector : Octets 4 := ⟨[0x6a, 0x76, 0x12, 0x02], rfl⟩

/-! ## The encoders -/

/-- mirrors localcluster/src/curvy_grant.rs:74-82 -/
def encodeTarget (address : Address) : Bytes :=
  let word : Bytes := List.replicate 32 0
  let word := copyFrom word 0 address.bytes
  ((word.set 20 0x01).set 21 0x00).set 22 0x03

/-- mirrors localcluster/src/curvy_grant.rs:85-90 -/
def encodeScopeTargetToken (target : Octets 32) : Bytes :=
  scopeTargetTokenSelector.bytes ++ target.bytes

/-- mirrors localcluster/src/curvy_grant.rs:94-100 -/
def prevalidatedSignature (owner : Address) : Bytes :=
  let signature : Bytes := List.replicate 65 0
  let signature := copyFrom signature 12 owner.bytes
  signature.set 64 0x01

/-- mirrors localcluster/src/curvy_grant.rs:104-108 -/
def wordU64 (value : UInt64) : Bytes :=
  copyFrom (List.replicate 32 0) 24 (be 8 value.toNat)

/-- mirrors localcluster/src/curvy_grant.rs:109-114 -/
def wordAddress (address : Address) : Bytes :=
  copyFrom (List.replicate 32 0) 12 address.bytes

/-- mirrors localcluster/src/curvy_grant.rs:115-120 -/
def padded (bytes : Bytes) : Bytes :=
  let out := wordU64 (UInt64.ofNat bytes.length) ++ bytes
  resize out ((out.length + 31) / 32 * 32) 0

/-- mirrors localcluster/src/curvy_grant.rs:103-140 -/
def encodeExecTransaction (to' : Address) (data signatures : Slice) : Bytes :=
  let headLen := 10 * 32
  let dataTail := padded data.bytes
  let signaturesOffset := headLen + dataTail.length
  execTransactionSelector.bytes ++ wordAddress to'
    ++ wordU64 0                                -- value
    ++ wordU64 (UInt64.ofNat headLen)           -- data (offset)
    ++ wordU64 0                                -- operation: CALL
    ++ wordU64 0                                -- safeTxGas
    ++ wordU64 0                                -- baseGas
    ++ wordU64 0                                -- gasPrice
    ++ List.replicate 32 0                      -- gasToken
    ++ List.replicate 32 0                      -- refundReceiver
    ++ wordU64 (UInt64.ofNat signaturesOffset)  -- signatures (offset)
    ++ dataTail
    ++ padded signatures.bytes

/-! ## Words -/

theorem wordU64_eq {n : Nat} (h : n < 2 ^ 64) : wordU64 (UInt64.ofNat n) = be 32 n := by
  have hn : (UInt64.ofNat n).toNat = n := by
    rw [UInt64.toNat_ofNat']
    omega
  have hwide : be (24 + 8) n = List.replicate 24 0 ++ be 8 n := be_add 24 (by omega)
  rw [wordU64, hn, hwide, copyFrom]
  simp

theorem wordAddress_eq (a : Address) : wordAddress a = List.replicate 12 0 ++ a.bytes := by
  simp [wordAddress, copyFrom]

theorem encodeTarget_eq (a : Address) :
    encodeTarget a = a.bytes ++ ([0x01, 0x00, 0x03] ++ List.replicate 9 0) := by
  have hcopy : copyFrom (List.replicate 32 0) 0 a.bytes = a.bytes ++ List.replicate 12 0 := by
    simp [copyFrom]
  simp only [encodeTarget, hcopy]
  rw [List.set_append_right _ _ (by simp), List.set_append_right _ _ (by simp),
    List.set_append_right _ _ (by simp), a.length_eq]
  rfl

theorem length_encodeTarget (a : Address) : (encodeTarget a).length = 32 := by
  simp [encodeTarget_eq]

theorem prevalidatedSignature_eq (a : Address) :
    prevalidatedSignature a = List.replicate 12 0 ++ (a.bytes ++ (List.replicate 32 0 ++ [1])) := by
  have hcopy : copyFrom (List.replicate 65 0) 12 a.bytes =
      List.replicate 12 0 ++ (a.bytes ++ List.replicate 33 0) := by
    simp [copyFrom]
  simp only [prevalidatedSignature, hcopy]
  rw [List.set_append_right _ _ (by simp), List.set_append_right _ _ (by simp),
    a.length_eq]
  rfl

/-- The target as the argument of `scopeTargetToken`. -/
def target (aggregator : Address) : Octets 32 :=
  ⟨encodeTarget aggregator, length_encodeTarget aggregator⟩

/-- The inner call, as a slice. -/
def scopeCall (aggregator : Address) : Slice where
  bytes := encodeScopeTargetToken (target aggregator)
  length_lt := by simp [encodeScopeTargetToken]

/-- The signature, as a slice. -/
def ownerSignature (owner : Address) : Slice where
  bytes := prevalidatedSignature owner
  length_lt := by simp [prevalidatedSignature_eq]

/-! ## The layout -/

def zeroAddress : Address := ⟨List.replicate 20 0, rfl⟩

/-- `execTransaction(address,uint256,bytes,uint8,uint256,uint256,uint256,address,address,bytes)` -/
def execTransactionTypes : List Ty :=
  [.address, .uint 256, .bytes, .uint 8, .uint 256, .uint 256, .uint 256, .address, .address,
    .bytes]

/-- A call of `data` at `to` under `signatures`, with no value and no gas refund. -/
def execTransactionArgs (to' : Address) (data signatures : Bytes) : List Value :=
  [.address to', .uint 0, .bytes data, .uint 0, .uint 0, .uint 0, .uint 0, .address zeroAddress,
    .address zeroAddress, .bytes signatures]

/-- A padded byte string is the tail of a `bytes` argument. -/
theorem padded_eq {bs : Bytes} (h : bs.length < 2 ^ 63) : padded bs = tail (.bytes bs) := by
  have hlen : (be 32 bs.length ++ bs).length = 32 + bs.length := by simp
  unfold padded
  rw [wordU64_eq (by omega)]
  simp only [hlen, tail, padding, resize]
  by_cases hfull : bs.length % 32 = 0
  · -- nothing to add: `resize` keeps the whole vector
    have hsize : (32 + bs.length + 31) / 32 * 32 = (be 32 bs.length ++ bs).length := by omega
    have hpad : (32 - bs.length % 32) % 32 = 0 := by omega
    rw [if_pos (by omega), hsize, List.take_length, hpad, List.replicate_zero, List.append_nil]
  · have hadd : (32 + bs.length + 31) / 32 * 32 - (32 + bs.length) =
        (32 - bs.length % 32) % 32 := by omega
    rw [if_neg (by omega), hadd, List.append_assoc]

theorem tails_execTransactionArgs (to' : Address) (data signatures : Bytes) :
    (execTransactionArgs to' data signatures).flatMap tail =
      tail (.bytes data) ++ tail (.bytes signatures) := by
  simp [execTransactionArgs, tail]

/-- The hand-written layout is the ABI's. -/
theorem encodeExecTransaction_eq (to' : Address) (data signatures : Slice) :
    encodeExecTransaction to' data signatures =
      execTransactionSelector.bytes ++
        encode (execTransactionArgs to' data.bytes signatures.bytes) := by
  have hdata := data.length_lt
  have htail : (tail (.bytes data.bytes)).length < 2 ^ 63 + 64 := by
    simp only [tail, padding, List.length_append, length_be, List.length_replicate]
    omega
  have hzeros : (List.replicate 32 0 : Bytes) = List.replicate 12 0 ++ zeroAddress.bytes := by
    decide
  have hzero : wordU64 0 = be 32 0 := wordU64_eq (by omega : 0 < 2 ^ 64)
  unfold encodeExecTransaction
  simp only [padded_eq hdata, padded_eq signatures.length_lt, hzero, wordAddress_eq, hzeros]
  rw [wordU64_eq (by omega : 10 * 32 < 2 ^ 64),
    wordU64_eq (by omega : 10 * 32 + (tail (.bytes data.bytes)).length < 2 ^ 64)]
  have hoff : ∀ off, heads off (execTransactionArgs to' data.bytes signatures.bytes) =
      List.replicate 12 0 ++ to'.bytes ++ be 32 0 ++ be 32 off ++ be 32 0 ++ be 32 0 ++ be 32 0 ++
        be 32 0 ++ (List.replicate 12 0 ++ zeroAddress.bytes) ++
        (List.replicate 12 0 ++ zeroAddress.bytes) ++
        be 32 (off + (tail (.bytes data.bytes)).length) := by
    intro off
    have hstatic : ∀ a, (tail (.address a)).length = 0 := fun a => rfl
    have hnumber : ∀ n, (tail (.uint n)).length = 0 := fun n => rfl
    simp only [execTransactionArgs, heads, head, hstatic, hnumber, Nat.add_zero, List.append_nil,
      List.append_assoc]
  rw [encode, hoff, tails_execTransactionArgs]
  simp only [execTransactionArgs, List.length_cons, List.length_nil, List.append_assoc]

theorem execTransactionArgs_fit (to' : Address) (data signatures : Slice) :
    List.Forall₂ Fits execTransactionTypes
      (execTransactionArgs to' data.bytes signatures.bytes) := by
  have hdata := data.length_lt
  have hsignatures := signatures.length_lt
  have hword : ∀ bits, bits ≤ 256 → Fits (.uint bits) (.uint 0) :=
    fun bits hbits => ⟨Nat.two_pow_pos bits, hbits⟩
  have hbytes : ∀ bs : Bytes, bs.length < 2 ^ 63 → Fits .bytes (.bytes bs) :=
    fun bs h => by unfold Fits; omega
  unfold execTransactionTypes execTransactionArgs
  exact .cons trivial (.cons (hword 256 (by omega)) (.cons (hbytes _ hdata)
    (.cons (hword 8 (by omega)) (.cons (hword 256 (by omega)) (.cons (hword 256 (by omega))
    (.cons (hword 256 (by omega)) (.cons trivial (.cons trivial
    (.cons (hbytes _ hsignatures) .nil)))))))))

theorem length_execTransactionArgs (to' : Address) (data signatures : Slice) :
    (encode (execTransactionArgs to' data.bytes signatures.bytes)).length < 2 ^ 65 := by
  have hdata := data.length_lt
  have hsignatures := signatures.length_lt
  have htail : ∀ bs : Bytes, (tail (.bytes bs)).length ≤ bs.length + 64 := by
    intro bs
    simp only [tail, padding, List.length_append, length_be, List.length_replicate]
    omega
  have hd := htail data.bytes
  have hs := htail signatures.bytes
  have hten : (execTransactionArgs to' data.bytes signatures.bytes).length = 10 := rfl
  rw [encode, List.length_append, length_heads, tails_execTransactionArgs, List.length_append, hten]
  omega

/-- The inner call is one of `scopeTargetToken` at the packed target. -/
theorem encodeScopeTargetToken_eq (t : Octets 32) :
    encodeScopeTargetToken t = scopeTargetTokenSelector.bytes ++ encode [.uint (ofBE t.bytes)] := by
  have hword : be 32 (ofBE t.bytes) = t.bytes := by
    have h := be_ofBE t.bytes
    rwa [t.length_eq] at h
  simp [encodeScopeTargetToken, encode, heads, head, tail, hword]

theorem decode_scopeTargetToken (t : Octets 32) :
    decodeCall scopeTargetTokenSelector [.uint 256] (encodeScopeTargetToken t) =
      some ([.uint (ofBE t.bytes)], (encodeScopeTargetToken t).length) := by
  rw [encodeScopeTargetToken_eq]
  have hlt : ofBE t.bytes < 256 ^ 32 := by
    have h := ofBE_lt t.bytes
    rwa [t.length_eq] at h
  apply decodeCall_encode
  · exact .cons ⟨by omega, by omega⟩ .nil
  · simp [encode, heads, tail]

/-- **The calldata is the contract's.** What `encode_exec_transaction` lays out decodes,
to its last byte, as a call of `execTransaction` (`6a761202`) with exactly its arguments;
when it carries the grant, the inner call decodes as `scopeTargetToken` (`a76c9a2f`) of the
word made of the aggregator, `01`, `00`, `03` and zeros. -/
theorem exec_transaction_decodes :
    (∀ (to' : Address) (data signatures : Slice),
      decodeCall ⟨[0x6a, 0x76, 0x12, 0x02], rfl⟩ execTransactionTypes
          (encodeExecTransaction to' data signatures) =
        some (execTransactionArgs to' data.bytes signatures.bytes,
          (encodeExecTransaction to' data signatures).length) ∧
      (encodeExecTransaction to' data signatures).length % 32 = 4) ∧
    ∀ to' owner aggregator : Address, ∃ data word,
      decodeCall ⟨[0x6a, 0x76, 0x12, 0x02], rfl⟩ execTransactionTypes
          (encodeExecTransaction to' (scopeCall aggregator) (ownerSignature owner)) =
        some (execTransactionArgs to' data (prevalidatedSignature owner),
          (encodeExecTransaction to' (scopeCall aggregator) (ownerSignature owner)).length) ∧
      decodeCall ⟨[0xa7, 0x6c, 0x9a, 0x2f], rfl⟩ [.uint 256] data =
        some ([.uint word], data.length) ∧
      be 32 word = aggregator.bytes ++ ([0x01, 0x00, 0x03] ++ List.replicate 9 0) := by
  have hdecode : ∀ (to' : Address) (data signatures : Slice),
      decodeCall execTransactionSelector execTransactionTypes
          (encodeExecTransaction to' data signatures) =
        some (execTransactionArgs to' data.bytes signatures.bytes,
          (encodeExecTransaction to' data signatures).length) := by
    intro to' data signatures
    have hlen := length_execTransactionArgs to' data signatures
    rw [encodeExecTransaction_eq]
    exact decodeCall_encode (execTransactionArgs_fit to' data signatures) (by omega)
  constructor
  · intro to' data signatures
    refine ⟨hdecode to' data signatures, ?_⟩
    have hwhole := length_encode_dvd (execTransactionArgs to' data.bytes signatures.bytes)
    rw [encodeExecTransaction_eq, List.length_append, execTransactionSelector.length_eq]
    omega
  · intro to' owner aggregator
    refine ⟨(scopeCall aggregator).bytes, ofBE (target aggregator).bytes,
      hdecode to' (scopeCall aggregator) (ownerSignature owner),
      decode_scopeTargetToken (target aggregator), ?_⟩
    have hword := be_ofBE (target aggregator).bytes
    rw [(target aggregator).length_eq] at hword
    rw [hword]
    exact encodeTarget_eq aggregator

/-- The calldata the module's own test compares with. -/
example : encodeExecTransaction ⟨List.replicate 20 0x11, rfl⟩
    (scopeCall ⟨List.replicate 20 0xcc, rfl⟩) (ownerSignature ⟨List.replicate 20 0xaa, rfl⟩) =
    [0x6a, 0x76, 0x12, 0x02] ++ (List.replicate 12 0 ++ List.replicate 20 0x11) ++
      be 32 0 ++ be 32 0x140 ++ be 32 0 ++ be 32 0 ++ be 32 0 ++ be 32 0 ++ be 32 0 ++ be 32 0 ++
      be 32 0x1a0 ++ be 32 0x24 ++ [0xa7, 0x6c, 0x9a, 0x2f] ++ List.replicate 20 0xcc ++
      [1, 0, 3] ++ List.replicate 9 0 ++ List.replicate 28 0 ++ be 32 0x41 ++
      List.replicate 12 0 ++ List.replicate 20 0xaa ++ be 32 0 ++ [1] ++ List.replicate 31 0 := by
  decide +kernel

end Hoprd.CurvyGrant
