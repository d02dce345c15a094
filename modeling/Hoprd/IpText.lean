import Hoprd.Net
import Hoprd.Text

/-!
# Writing IP addresses (`Display` for `IpAddr`)

What Rust's standard library writes: dotted IPv4, IPv6 in lower-case groups without
leading zeros with the first of its longest runs of at least two zero groups as `::`, and
an IPv4-mapped address as `::ffff:` before the dotted one.

* `readNumber_toDigits`: a number is read back from its digits.
* `longestZeros_spec`: the run that is left out is a run of zero groups.
* `fromStr_toText`: every address is read back from its text.
-/
namespace Hoprd

/-- The eight groups of an IPv6 address. -/
def segments (s : BitVec 128) : List Nat :=
  (List.range 8).map fun i => s.toNat / 65536 ^ (7 - i) % 65536

structure Span where
  start : Nat
  len : Nat
  deriving DecidableEq, Repr

/-- One step of the search for zeros: the longest run so far, the one that ends here. -/
def zerosStep (i segment : Nat) (longest current : Span) : Span × Span :=
  if segment = 0 then
    let current : Span := ⟨if current.len = 0 then i else current.start, current.len + 1⟩
    (if longest.len < current.len then current else longest, current)
  else (longest, ⟨0, 0⟩)

def zerosFrom : Nat → List Nat → Span → Span → Span
  | _, [], longest, _ => longest
  | i, segment :: segments, longest, current =>
    let (longest, current) := zerosStep i segment longest current
    zerosFrom (i + 1) segments longest current

def longestZeros (segments : List Nat) : Span := zerosFrom 0 segments ⟨0, 0⟩ ⟨0, 0⟩

/-- `write!(f, "{:x}", ..)` for each group, with `:` between them, and before the first
unless it is the first. -/
def groupsText (first : Bool) : List Nat → List Char
  | [] => []
  | g :: gs => (if first then [] else [':']) ++ Nat.toDigits 16 g ++ groupsText false gs

def ipv4Text (a b c d : UInt8) : List Char :=
  Nat.toDigits 10 a.toNat ++ '.' :: (Nat.toDigits 10 b.toNat ++ '.' ::
    (Nat.toDigits 10 c.toNat ++ '.' :: Nat.toDigits 10 d.toNat))

/-- `Ipv6Addr::to_ipv4_mapped`. -/
def toIpv4Mapped (segments : List Nat) : Option (UInt8 × UInt8 × UInt8 × UInt8) :=
  match segments with
  | [0, 0, 0, 0, 0, 65535, ab, cd] =>
    some (.ofNat (ab / 256), .ofNat ab, .ofNat (cd / 256), .ofNat cd)
  | _ => none

def ipv6Text (s : BitVec 128) : List Char :=
  match toIpv4Mapped (segments s) with
  | some (a, b, c, d) => "::ffff:".toList ++ ipv4Text a b c d
  | none =>
    let zeroes := longestZeros (segments s)
    if 1 < zeroes.len then
      groupsText true ((segments s).take zeroes.start) ++
        ':' :: ':' :: groupsText true ((segments s).drop (zeroes.start + zeroes.len))
    else groupsText true (segments s)

def IpAddr.toText : IpAddr → String
  | .v4 a b c d => .ofList (ipv4Text a b c d)
  | .v6 s => .ofList (ipv6Text s)

/-! ## Numbers -/

theorem toDigits_concat {r : Nat} (hr : 1 < r) {n : Nat} (h : r ≤ n) :
    Nat.toDigits r n = Nat.toDigits r (n / r) ++ [Nat.digitChar (n % r)] := by
  rw [Nat.toDigits_eq_if hr, if_neg (Nat.not_lt.2 h)]

/-- The digits of a radix are read as what they stand for. -/
structure Digits (r : Nat) : Prop where
  gt_one : 1 < r
  toDigit : ∀ d < r, toDigit r (Nat.digitChar d) = some d

theorem digits_ten : Digits 10 := ⟨by decide, by decide⟩

theorem digits_sixteen : Digits 16 := ⟨by decide, by decide⟩

variable {r : Nat}

theorem Digits.all (hr : Digits r) (n : Nat) :
    ∀ c ∈ Nat.toDigits r n, (Hoprd.toDigit r c).isSome = true := by
  induction n using Nat.strongRecOn with
  | ind n ih =>
    intro c hc
    by_cases hn : r ≤ n
    · rw [toDigits_concat hr.gt_one hn, List.mem_append, List.mem_singleton] at hc
      rcases hc with hc | rfl
      · exact ih (n / r) (Nat.div_lt_self (by have := hr.gt_one; omega) hr.gt_one) c hc
      · rw [hr.toDigit _ (Nat.mod_lt n (by have := hr.gt_one; omega))]
        rfl
    · rw [Nat.toDigits_of_lt_base (Nat.lt_of_not_le hn), List.mem_singleton] at hc
      rw [hc, hr.toDigit n (Nat.lt_of_not_le hn)]
      rfl

theorem Digits.value (hr : Digits r) (n : Nat) :
    (Nat.toDigits r n).foldl (fun n c => n * r + (Hoprd.toDigit r c).getD 0) 0 = n := by
  induction n using Nat.strongRecOn with
  | ind n ih =>
    by_cases hn : r ≤ n
    · rw [toDigits_concat hr.gt_one hn, List.foldl_append,
        ih (n / r) (Nat.div_lt_self (by have := hr.gt_one; omega) hr.gt_one), List.foldl_cons,
        List.foldl_nil, hr.toDigit _ (Nat.mod_lt n (by have := hr.gt_one; omega)),
        Option.getD_some]
      exact Nat.div_add_mod' n r
    · have hlt := Nat.lt_of_not_le hn
      rw [Nat.toDigits_of_lt_base hlt, List.foldl_cons, List.foldl_nil, hr.toDigit n hlt,
        Option.getD_some, Nat.zero_mul, Nat.zero_add]

/-- No digits that go on where the number has ended. -/
def Stops (r : Nat) (rest : List Char) : Prop := ∀ c ∈ rest.head?, Hoprd.toDigit r c = none

theorem takeWhile_digits (hr : Digits r) {rest : List Char} (n : Nat) (hrest : Stops r rest) :
    (Nat.toDigits r n ++ rest).takeWhile (fun c => (Hoprd.toDigit r c).isSome) =
      Nat.toDigits r n := by
  rw [List.takeWhile_append_of_pos (hr.all n)]
  cases rest with
  | nil => rw [List.takeWhile_nil, List.append_nil]
  | cons c rest =>
    rw [List.takeWhile_cons_of_neg, List.append_nil]
    rw [hrest c rfl]
    exact Bool.false_ne_true

/-- A number is read back from its digits. -/
theorem readNumber_toDigits (hr : Digits r) {maxDigits limit n : Nat} {zeros : Bool}
    {rest : List Char} (hlen : (Nat.toDigits r n).length ≤ maxDigits) (hlimit : n < limit)
    (hzero : zeros = true ∨ (Nat.toDigits r n).head? ≠ some '0' ∨ (Nat.toDigits r n).length ≤ 1)
    (hrest : Stops r rest) :
    readNumber r maxDigits limit zeros (Nat.toDigits r n ++ rest) = some (n, rest) := by
  unfold readNumber
  simp only [takeWhile_digits hr n hrest, hr.value n]
  have hne : (Nat.toDigits r n).isEmpty = false := by
    rw [List.isEmpty_eq_false_iff]
    exact Nat.toDigits_ne_nil
  rw [if_neg, if_neg, List.drop_left]
  · simp only [Bool.and_eq_true, Bool.not_eq_true', beq_iff_eq, decide_eq_true_eq, not_and,
      Nat.not_lt]
    rintro ⟨hfalse, hhead⟩
    rcases hzero with h | h | h
    · rw [h] at hfalse
      cases hfalse
    · exact absurd hhead h
    · exact h
  · simp only [hne, Bool.or_false, Bool.or_eq_true, decide_eq_true_eq, not_or, Nat.not_lt,
      Nat.not_le]
    exact ⟨hlen, hlimit⟩

/-- Without a digit there is no number. -/
theorem readNumber_none {maxDigits limit : Nat} {zeros : Bool} {cs : List Char}
    (h : Stops r cs) : readNumber r maxDigits limit zeros cs = none := by
  unfold readNumber
  have hempty : cs.takeWhile (fun c => (Hoprd.toDigit r c).isSome) = [] := by
    cases cs with
    | nil => rfl
    | cons c cs =>
      rw [List.takeWhile_cons_of_neg]
      rw [h c rfl]
      exact Bool.false_ne_true
  simp only [hempty, List.isEmpty_nil, Bool.or_true, Bool.true_or, if_true]

theorem stops_nil (r : Nat) : Stops r [] := nofun

theorem stops_cons {c : Char} (h : toDigit r c = none) (cs : List Char) : Stops r (c :: cs) := by
  rintro _ ⟨⟩
  exact h

/-- What a reader of numbers leaves is the end of what it was given. -/
theorem readNumber_suffix {maxDigits limit n : Nat} {zeros : Bool} {cs rest : List Char}
    (h : readNumber r maxDigits limit zeros cs = some (n, rest)) : rest <:+ cs := by
  unfold readNumber at h
  simp only [Option.ite_none_left_eq_some] at h
  obtain ⟨-, -, h⟩ := h
  rw [← (Prod.mk.inj (Option.some.inj h)).2]
  exact List.drop_suffix _ _

/-! ## IPv4 -/

theorem dec_head : ∀ n < 256,
    (Nat.toDigits 10 n).head? ≠ some '0' ∨ (Nat.toDigits 10 n).length ≤ 1 := by
  decide +kernel

theorem readOctet (a : UInt8) {rest : List Char} (hrest : Stops 10 rest) :
    readNumber 10 3 256 false (Nat.toDigits 10 a.toNat ++ rest) = some (a.toNat, rest) := by
  have hlt : a.toNat < 256 := a.toNat_lt
  refine readNumber_toDigits digits_ten ?_ hlt (.inr (dec_head _ hlt)) hrest
  rw [Nat.length_toDigits_le_iff (by decide) (by decide)]
  exact Nat.lt_trans hlt (by decide)

theorem readIpv4Addr_text (a b c d : UInt8) {rest : List Char} (hrest : Stops 10 rest) :
    readIpv4Addr (ipv4Text a b c d ++ rest) = some ((a, b, c, d), rest) := by
  have hdot (cs : List Char) : Stops 10 ('.' :: cs) := stops_cons (by decide) cs
  simp only [readIpv4Addr, ipv4Text, readSeparator, readGivenChar, List.append_assoc,
    List.cons_append, readOctet _ (hdot _), readOctet d hrest, Option.bind_eq_bind,
    Option.bind_some, if_true, Bool.false_eq_true, if_false, UInt8.ofNat_toNat]
  rfl

/-- Without a dot there is no IPv4 address. -/
theorem readIpv4Addr_no_dot {cs : List Char} (h : '.' ∉ cs) : readIpv4Addr cs = none := by
  simp only [readIpv4Addr, readSeparator, if_true, Bool.false_eq_true, if_false]
  cases hfirst : readNumber 10 3 256 false cs with
  | none => rfl
  | some p =>
    obtain ⟨n, rest⟩ := p
    have hrest : '.' ∉ rest := fun hmem => h ((readNumber_suffix hfirst).mem hmem)
    have hgiven : readGivenChar '.' rest = none := by
      cases rest with
      | nil => rfl
      | cons c rest =>
        rw [readGivenChar, if_neg]
        rintro rfl
        exact hrest (List.mem_cons_self ..)
    simp only [Option.bind_eq_bind, Option.bind_some, hgiven, Option.bind_none]

theorem readIpv4Addr_none {cs : List Char} (h : Stops 10 cs) : readIpv4Addr cs = none := by
  simp only [readIpv4Addr, readSeparator, if_true, readNumber_none h, Option.bind_eq_bind,
    Option.bind_none]

/-! ## Groups -/

theorem readGroups_none {slots : Nat} {first : Bool} {cs : List Char}
    (hipv4 : readSeparator ':' first readIpv4Addr cs = none)
    (hgroup : readSeparator ':' first (readNumber 16 4 65536 true) cs = none) :
    readGroups (slots + 1) first cs = ([], false, cs) := by
  simp only [readGroups, hipv4, ite_self, hgroup]

theorem readGroups_group {slots g : Nat} {first ipv4 : Bool} {cs cs' rest : List Char}
    {gs : List Nat} (hipv4 : readSeparator ':' first readIpv4Addr cs = none)
    (hgroup : readSeparator ':' first (readNumber 16 4 65536 true) cs = some (g, cs'))
    (hgs : readGroups slots false cs' = (gs, ipv4, rest)) :
    readGroups (slots + 1) first cs = (g :: gs, ipv4, rest) := by
  simp only [readGroups, hipv4, ite_self, hgroup, hgs]

theorem readGroups_ipv4 {slots : Nat} {first : Bool} {a b c d : UInt8} {cs rest : List Char}
    (hslots : slots ≠ 0)
    (hipv4 : readSeparator ':' first readIpv4Addr cs = some ((a, b, c, d), rest)) :
    readGroups (slots + 1) first cs =
      ([a.toNat * 256 + b.toNat, c.toNat * 256 + d.toNat], true, rest) := by
  simp only [readGroups, if_neg hslots, hipv4]

theorem readGroup {g : Nat} (hg : g < 65536) {rest : List Char} (hrest : Stops 16 rest) :
    readNumber 16 4 65536 true (Nat.toDigits 16 g ++ rest) = some (g, rest) := by
  refine readNumber_toDigits digits_sixteen ?_ hg (.inl rfl) hrest
  rw [Nat.length_toDigits_le_iff (by decide) (by decide)]
  exact hg

theorem toDigits_no_dot (n : Nat) : '.' ∉ Nat.toDigits 16 n := by
  intro h
  exact absurd (digits_sixteen.all n '.' h) (by decide)

theorem groupsText_no_dot (first : Bool) (gs : List Nat) : '.' ∉ groupsText first gs := by
  induction gs generalizing first with
  | nil => exact nofun
  | cons g gs ih =>
    rw [groupsText, List.mem_append, List.mem_append]
    rintro ((h | h) | h)
    · cases first with
      | true => exact nomatch h
      | false => exact absurd (List.mem_singleton.1 h) (by decide)
    · exact toDigits_no_dot g h
    · exact ih false h

/-- Where no further group can be read. -/
structure GroupsEnd (first : Bool) (rest : List Char) : Prop where
  stops : Stops 16 rest
  no_dot : '.' ∉ rest
  next : readSeparator ':' first (readNumber 16 4 65536 true) rest = none

theorem groupsEnd_nil (first : Bool) : GroupsEnd first [] where
  stops := stops_nil 16
  no_dot := nofun
  next := by cases first <;> rfl

/-- Before `::` no further group can be read. -/
theorem groupsEnd_colons (first : Bool) {cs : List Char} (h : '.' ∉ cs) :
    GroupsEnd first (':' :: ':' :: cs) where
  stops := stops_cons (by decide) _
  no_dot := by
    simp only [List.mem_cons, not_or]
    exact ⟨by decide, by decide, h⟩
  next := by
    have hcolon : Stops 16 (':' :: cs) := stops_cons (by decide) cs
    have hcolons : Stops 16 (':' :: ':' :: cs) := stops_cons (by decide) _
    cases first with
    | true =>
      rw [readSeparator, if_pos rfl]
      exact readNumber_none hcolons
    | false =>
      rw [readSeparator, if_neg Bool.false_ne_true, readGivenChar, if_pos rfl, Option.bind_some]
      exact readNumber_none hcolon

theorem stops_groupsText (gs : List Nat) {rest : List Char} (hrest : Stops 16 rest) :
    Stops 16 (groupsText false gs ++ rest) := by
  cases gs with
  | nil => exact hrest
  | cons g gs => exact stops_cons (by decide) _

/-- Groups are read back from their text. -/
theorem readGroups_text {gs : List Nat} (hgs : ∀ g ∈ gs, g < 65536) {rest : List Char} :
    ∀ {slots : Nat} {first : Bool}, gs.length ≤ slots → GroupsEnd (first && gs.isEmpty) rest →
      readGroups slots first (groupsText first gs ++ rest) = (gs, false, rest) := by
  induction gs with
  | nil =>
    intro slots first _ hrest
    rw [List.isEmpty_nil, Bool.and_true] at hrest
    rw [groupsText, List.nil_append]
    cases slots with
    | zero => rfl
    | succ slots =>
      have hipv4 : readSeparator ':' first readIpv4Addr rest = none := by
        cases first with
        | true => exact readIpv4Addr_no_dot hrest.no_dot
        | false =>
          rw [readSeparator, if_neg Bool.false_ne_true]
          cases rest with
          | nil => rfl
          | cons c rest =>
            rw [readGivenChar]
            split
            · exact readIpv4Addr_no_dot fun h => hrest.no_dot (List.mem_cons_of_mem c h)
            · rfl
      exact readGroups_none hipv4 hrest.next
  | cons g gs ih =>
    intro slots first hlen hrest
    rw [List.isEmpty_cons, Bool.and_false] at hrest
    cases slots with
    | zero => exact absurd hlen (Nat.not_succ_le_zero _)
    | succ slots =>
      have htail : '.' ∉ Nat.toDigits 16 g ++ (groupsText false gs ++ rest) := by
        rw [List.mem_append, List.mem_append, not_or, not_or]
        exact ⟨toDigits_no_dot g, groupsText_no_dot false gs, hrest.no_dot⟩
      have hnumber := readGroup (hgs g (List.mem_cons_self ..)) (stops_groupsText gs hrest.stops)
      have hipv4 : readSeparator ':' first readIpv4Addr (groupsText first (g :: gs) ++ rest) =
          none := by
        rw [groupsText, List.append_assoc, List.append_assoc]
        cases first with
        | true => exact readIpv4Addr_no_dot htail
        | false => exact readIpv4Addr_no_dot htail
      have hgroup : readSeparator ':' first (readNumber 16 4 65536 true)
          (groupsText first (g :: gs) ++ rest) = some (g, groupsText false gs ++ rest) := by
        rw [groupsText, List.append_assoc, List.append_assoc]
        cases first with
        | true => exact hnumber
        | false => exact hnumber
      have hrec : readGroups slots false (groupsText false gs ++ rest) = (gs, false, rest) :=
        ih (fun g' h => hgs g' (List.mem_cons_of_mem g h)) (Nat.le_of_succ_le_succ hlen) hrest
      exact readGroups_group hipv4 hgroup hrec

/-! ## The run of zeros -/

/-- A run of zero groups. -/
structure Span.Zeros (span : Span) (done : List Nat) : Prop where
  le : span.start + span.len ≤ done.length
  zero : ∀ i, span.start ≤ i → i < span.start + span.len → done[i]? = some 0

theorem zeros_snoc {span : Span} {done : List Nat} (h : span.Zeros done) (segment : Nat) :
    span.Zeros (done ++ [segment]) where
  le := by
    rw [List.length_append]
    exact Nat.le_add_right_of_le h.le
  zero i hi hi' := by
    rw [List.getElem?_append_left (Nat.lt_of_lt_of_le hi' h.le)]
    exact h.zero i hi hi'

/-- The run that ends here. -/
structure Current (span : Span) (done : List Nat) : Prop where
  zeros : span.Zeros done
  here : span.len ≠ 0 → span.start + span.len = done.length

theorem current_zero {span : Span} {done : List Nat} (h : Current span done) :
    Current ⟨if span.len = 0 then done.length else span.start, span.len + 1⟩ (done ++ [0]) := by
  have hend : (if span.len = 0 then done.length else span.start) + (span.len + 1) =
      (done ++ [0]).length := by
    rw [List.length_append, List.length_singleton]
    split
    · rename_i hzero
      rw [hzero]
    · rename_i hne
      have := h.here hne
      omega
  refine ⟨⟨hend.le, ?_⟩, fun _ => hend⟩
  intro i hi hi'
  dsimp only at hi hi'
  rw [hend, List.length_append, List.length_singleton] at hi'
  by_cases hlast : i = done.length
  · rw [hlast, List.getElem?_append_right (Nat.le_refl _), Nat.sub_self]
    rfl
  · have hlt : i < done.length := by omega
    rw [List.getElem?_append_left hlt]
    split at hi
    · omega
    · rename_i hne
      exact h.zeros.zero i hi (by rw [h.here hne]; exact hlt)

theorem zerosFrom_zeros {segments done : List Nat} {longest current : Span}
    (hlongest : longest.Zeros done) (hcurrent : Current current done) :
    (zerosFrom done.length segments longest current).Zeros (done ++ segments) := by
  induction segments generalizing done longest current with
  | nil =>
    rw [List.append_nil]
    exact hlongest
  | cons segment segments ih =>
    have hlen : done.length + 1 = (done ++ [segment]).length := by
      rw [List.length_append, List.length_singleton]
    rw [zerosFrom, hlen, List.append_cons done segment segments]
    by_cases hzero : segment = 0
    · have hnext := current_zero hcurrent
      simp only [zerosStep, if_pos hzero]
      subst hzero
      refine ih ?_ hnext
      split
      · exact hnext.zeros
      · exact zeros_snoc hlongest 0
    · simp only [zerosStep, if_neg hzero]
      refine ih (zeros_snoc hlongest segment) ⟨⟨Nat.zero_le _, ?_⟩, fun h => (h rfl).elim⟩
      intro i _ hi
      exact absurd hi (Nat.not_lt_zero i)

theorem longestZeros_zeros (segments : List Nat) : (longestZeros segments).Zeros segments := by
  have hempty : Span.Zeros ⟨0, 0⟩ [] := ⟨Nat.le_refl 0, fun i _ hi => absurd hi (Nat.not_lt_zero i)⟩
  have hfrom : (zerosFrom ([] : List Nat).length segments ⟨0, 0⟩ ⟨0, 0⟩).Zeros ([] ++ segments) :=
    zerosFrom_zeros hempty ⟨hempty, fun h => absurd rfl h⟩
  exact hfrom

/-- Between what is before the run and what is after it there are only zeros. -/
theorem longestZeros_spec (segments : List Nat) :
    segments.take (longestZeros segments).start ++
      List.replicate (longestZeros segments).len 0 ++
      segments.drop ((longestZeros segments).start + (longestZeros segments).len) = segments := by
  obtain ⟨hle, hzero⟩ := longestZeros_zeros segments
  generalize longestZeros segments = span at hle hzero
  have hrun : (segments.drop span.start).take span.len = List.replicate span.len 0 := by
    rw [List.eq_replicate_iff, List.length_take, List.length_drop]
    refine ⟨by omega, ?_⟩
    intro x hx
    obtain ⟨i, hi, rfl⟩ := List.mem_iff_getElem.1 hx
    rw [List.length_take, List.length_drop] at hi
    have hat := hzero (span.start + i) (by omega) (by omega)
    rw [List.getElem?_eq_getElem (by omega), Option.some.injEq] at hat
    rw [List.getElem_take, List.getElem_drop, hat]
  rw [← hrun, ← List.drop_drop, List.append_assoc, List.take_append_drop, List.take_append_drop]

/-! ## IPv6 -/

theorem segments_length (s : BitVec 128) : (segments s).length = 8 := rfl

theorem segments_lt {s : BitVec 128} : ∀ g ∈ segments s, g < 65536 := by
  intro g hg
  obtain ⟨i, -, rfl⟩ := List.mem_map.1 hg
  exact Nat.mod_lt _ (by decide)

/-- The groups are the address. -/
theorem segmentsOf_segments (s : BitVec 128) : segmentsOf (segments s) = s := by
  have hstep (k : Nat) : s.toNat / 65536 ^ (k + 1) * 65536 + s.toNat / 65536 ^ k % 65536 =
      s.toNat / 65536 ^ k := by
    rw [Nat.pow_succ, ← Nat.div_div_eq_div_mul]
    exact Nat.div_add_mod' _ _
  have htop : 0 * 65536 + s.toNat / 65536 ^ 7 % 65536 = s.toNat / 65536 ^ 7 := by
    have hlt := s.isLt
    rw [Nat.zero_mul, Nat.zero_add, Nat.mod_eq_of_lt]
    rw [Nat.div_lt_iff_lt_mul (by decide)]
    exact hlt
  have hfold : (segments s).foldl (fun n g => n * 65536 + g) 0 = s.toNat := by
    show ((((((((0 * 65536 + s.toNat / 65536 ^ 7 % 65536) * 65536 +
      s.toNat / 65536 ^ 6 % 65536) * 65536 + s.toNat / 65536 ^ 5 % 65536) * 65536 +
      s.toNat / 65536 ^ 4 % 65536) * 65536 + s.toNat / 65536 ^ 3 % 65536) * 65536 +
      s.toNat / 65536 ^ 2 % 65536) * 65536 + s.toNat / 65536 ^ 1 % 65536) * 65536 +
      s.toNat / 65536 ^ 0 % 65536) = s.toNat
    rw [htop, hstep 6, hstep 5, hstep 4, hstep 3, hstep 2, hstep 1, hstep 0, Nat.pow_zero,
      Nat.div_one]
  rw [segmentsOf, hfold, BitVec.ofNat_toNat, BitVec.setWidth_eq]

theorem readIpv6Addr_groups {gs : List Nat} (hgs : ∀ g ∈ gs, g < 65536) (hlen : gs.length = 8) :
    readIpv6Addr (groupsText true gs) = some (segmentsOf gs, []) := by
  have hread : readGroups 8 true (groupsText true gs) = (gs, false, []) := by
    have h : readGroups 8 true (groupsText true gs ++ []) = (gs, false, []) :=
      readGroups_text hgs (Nat.le_of_eq hlen) (groupsEnd_nil _)
    rwa [List.append_nil] at h
  simp only [readIpv6Addr, hread, hlen, if_true]
  rfl

/-- Around `::`, the groups before it and those after it. -/
theorem readIpv6Addr_colons {head tail : List Nat} (hhead : ∀ g ∈ head, g < 65536)
    (htail : ∀ g ∈ tail, g < 65536) (hlen : head.length + tail.length ≤ 7) :
    readIpv6Addr (groupsText true head ++ ':' :: ':' :: groupsText true tail) =
      some (segmentsOf (head ++ List.replicate (8 - head.length - tail.length) 0 ++ tail), []) := by
  have hreadHead : readGroups 8 true (groupsText true head ++ ':' :: ':' :: groupsText true tail) =
      (head, false, ':' :: ':' :: groupsText true tail) :=
    readGroups_text hhead (by omega) (groupsEnd_colons _ (groupsText_no_dot true tail))
  have hreadTail : readGroups (7 - head.length) true (groupsText true tail) =
      (tail, false, []) := by
    have h : readGroups (7 - head.length) true (groupsText true tail ++ []) = (tail, false, []) :=
      readGroups_text htail (by omega) (groupsEnd_nil _)
    rwa [List.append_nil] at h
  have hne : head.length ≠ 8 := by omega
  simp only [readIpv6Addr, hreadHead, if_neg hne, Bool.false_eq_true, if_false, readGivenChar,
    if_true, Option.bind_eq_bind, Option.bind_some, hreadTail]
  rfl

theorem readGroups_mapped (a b c d : UInt8) :
    readGroups 7 true ("ffff:".toList ++ ipv4Text a b c d) =
      ([65535, a.toNat * 256 + b.toNat, c.toNat * 256 + d.toNat], true, []) := by
  have hffff : "ffff:".toList ++ ipv4Text a b c d =
      Nat.toDigits 16 65535 ++ ':' :: ipv4Text a b c d := by
    rw [show Nat.toDigits 16 65535 = ['f', 'f', 'f', 'f'] by decide]
    rfl
  have hmapped : readIpv4Addr (ipv4Text a b c d) = some ((a, b, c, d), []) := by
    have h := readIpv4Addr_text a b c d (stops_nil 10)
    rwa [List.append_nil] at h
  have hrest : readGroups 6 false (':' :: ipv4Text a b c d) =
      ([a.toNat * 256 + b.toNat, c.toNat * 256 + d.toNat], true, []) := by
    refine readGroups_ipv4 (by decide) ?_
    rw [readSeparator, if_neg Bool.false_ne_true, readGivenChar, if_pos rfl, Option.bind_some,
      hmapped]
  rw [hffff]
  refine readGroups_group ?_ ?_ hrest
  · rw [readSeparator, if_pos rfl, ← hffff]
    exact readIpv4Addr_none (stops_cons (by decide) _)
  · rw [readSeparator, if_pos rfl]
    exact readGroup (by decide) (stops_cons (by decide) _)

theorem readIpv6Addr_mapped (a b c d : UInt8) :
    readIpv6Addr ("::ffff:".toList ++ ipv4Text a b c d) =
      some (segmentsOf [0, 0, 0, 0, 0, 65535, a.toNat * 256 + b.toNat, c.toNat * 256 + d.toNat],
        []) := by
  have hhead : readGroups 8 true ("::ffff:".toList ++ ipv4Text a b c d) =
      ([], false, ':' :: ':' :: ("ffff:".toList ++ ipv4Text a b c d)) := by
    refine readGroups_none ?_ ?_
    · rw [readSeparator, if_pos rfl]
      exact readIpv4Addr_none (stops_cons (by decide) _)
    · rw [readSeparator, if_pos rfl]
      exact readNumber_none (stops_cons (by decide) _)
  simp only [readIpv6Addr, hhead, List.length_nil, Bool.false_eq_true,
    if_false, readGivenChar, if_true, Option.bind_eq_bind, Option.bind_some, Nat.sub_zero,
    readGroups_mapped]
  rfl

theorem toIpv4Mapped_some {gs : List Nat} (hgs : ∀ g ∈ gs, g < 65536) {a b c d : UInt8}
    (h : toIpv4Mapped gs = some (a, b, c, d)) :
    gs = [0, 0, 0, 0, 0, 65535, a.toNat * 256 + b.toNat, c.toNat * 256 + d.toNat] := by
  have hpair {g : Nat} (hg : g < 65536) :
      (UInt8.ofNat (g / 256)).toNat * 256 + (UInt8.ofNat g).toNat = g := by
    rw [UInt8.toNat_ofNat', UInt8.toNat_ofNat']
    omega
  unfold toIpv4Mapped at h
  split at h
  · rename_i ab cd
    obtain ⟨rfl, rfl, rfl, rfl⟩ : UInt8.ofNat (ab / 256) = a ∧ UInt8.ofNat ab = b ∧
        UInt8.ofNat (cd / 256) = c ∧ UInt8.ofNat cd = d := by
      simpa only [Option.some.injEq, Prod.mk.injEq] using h
    rw [hpair (hgs ab (by simp)), hpair (hgs cd (by simp))]
  · cases h

/-- An IPv6 address is read back from its text. -/
theorem readIpv6Addr_text (s : BitVec 128) : readIpv6Addr (ipv6Text s) = some (s, []) := by
  unfold ipv6Text
  cases hmapped : toIpv4Mapped (segments s) with
  | some abcd =>
    obtain ⟨a, b, c, d⟩ := abcd
    show readIpv6Addr ("::ffff:".toList ++ ipv4Text a b c d) = _
    rw [readIpv6Addr_mapped, ← toIpv4Mapped_some segments_lt hmapped, segmentsOf_segments]
  | none =>
    have hspec := longestZeros_spec (segments s)
    have hle := (longestZeros_zeros (segments s)).le
    rw [segments_length] at hle
    dsimp only
    split
    · rename_i hlong
      have hhead : ((segments s).take (longestZeros (segments s)).start).length =
          (longestZeros (segments s)).start := by
        rw [List.length_take, segments_length]
        omega
      have htail : ((segments s).drop ((longestZeros (segments s)).start +
          (longestZeros (segments s)).len)).length =
            8 - ((longestZeros (segments s)).start + (longestZeros (segments s)).len) := by
        rw [List.length_drop, segments_length]
      have hzeros : 8 - (longestZeros (segments s)).start -
          (8 - ((longestZeros (segments s)).start + (longestZeros (segments s)).len)) =
            (longestZeros (segments s)).len := by omega
      rw [readIpv6Addr_colons (fun g hg => segments_lt g (List.mem_of_mem_take hg))
        (fun g hg => segments_lt g (List.mem_of_mem_drop hg)) (by omega), hhead, htail, hzeros,
        hspec, segmentsOf_segments]
    · rw [readIpv6Addr_groups segments_lt (segments_length s), segmentsOf_segments]

theorem readIpv4Addr_ipv6Text (s : BitVec 128) : readIpv4Addr (ipv6Text s) = none := by
  unfold ipv6Text
  cases toIpv4Mapped (segments s) with
  | some abcd => exact readIpv4Addr_none (stops_cons (by decide) _)
  | none =>
    dsimp only
    split
    · refine readIpv4Addr_no_dot ?_
      simp only [List.mem_append, List.mem_cons, not_or]
      exact ⟨groupsText_no_dot true _, by decide, by decide, groupsText_no_dot true _⟩
    · exact readIpv4Addr_no_dot (groupsText_no_dot true _)

/-- **An address is read back from its text.** -/
theorem fromStr_toText (ip : IpAddr) : IpAddr.fromStr ip.toText = some ip := by
  cases ip with
  | v4 a b c d =>
    have h := readIpv4Addr_text a b c d (stops_nil 10)
    rw [List.append_nil] at h
    simp only [IpAddr.fromStr, IpAddr.toText, String.toList_ofList, readIpAddr, h]
  | v6 s =>
    simp only [IpAddr.fromStr, IpAddr.toText, String.toList_ofList, readIpAddr,
      readIpv4Addr_ipv6Text, readIpv6Addr_text, Option.map_some]

end Hoprd
