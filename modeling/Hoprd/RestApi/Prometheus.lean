import Hoprd.Core.Regex
import Hoprd.Text

/-!
# Path labels of the API metrics (`rest-api/src/middleware/prometheus.rs`)

`record` counts the calls of each path, with the first match of `ID_REGEX` in the
path replaced by `<id>`, so that the label does not depend on who is asked about.

* `idRegex_identifier`: at the start of an identifier the whole identifier is
  matched, but of a channel id only as much as looks like an address: the
  alternative for 40 digits is tried before the one for 64.
* `idRegex_before`: nothing of the path before the identifier is matched, unless it
  ends in four numbers and a slash, which the identifier makes an address and port of.
* `path_labels_hide_iff`: these two are the only ways in which a label goes wrong.
-/
namespace Hoprd.RestApi.Prometheus

open Core Core.Regex

/-- The characters that `\d` matches, with the digits among ASCII. -/
structure UnicodeDigits where
  isDigit : Char → Bool
  ascii : ∀ c, c.toNat < 128 → isDigit c = c.isDigit

variable (d : UnicodeDigits)

/-! ## The expression -/

/-- `0x[0-9A-Fa-f]{n}`. -/
def hexRegex (n : Nat) : Regex Char := seq (word "0x".toList) (exactly (one Char.isHexDigit) n)

/-- `12D3KooW[A-Za-z0-9]{44}`. -/
def peerIdRegex : Regex Char :=
  seq (word "12D3KooW".toList) (exactly (one Char.isAlphanum) 44)

/-- `\d{1,3}`. -/
def octetRegex : Regex Char := between (one d.isDigit) 1 3

/-- `\d{1,3}\.\d{1,3}\.\d{1,3}\.\d{1,3}`. -/
def quadRegex : Regex Char :=
  seq (octetRegex d) (seq (word ['.']) (seq (octetRegex d) (seq (word ['.'])
    (seq (octetRegex d) (seq (word ['.']) (octetRegex d))))))

/-- `\d{1,3}\.\d{1,3}\.\d{1,3}\.\d{1,3}/\d{1,5}`. -/
def socketRegex : Regex Char :=
  seq (quadRegex d) (seq (word ['/']) (between (one d.isDigit) 1 5))

/-- mirrors rest-api/src/middleware/prometheus.rs:25-29 -/
def idRegex : Regex Char :=
  alt (hexRegex 40) (alt (hexRegex 64) (alt peerIdRegex (socketRegex d)))

/-- What a call is counted under. -/
structure CallLabels where
  path : List Char
  method : String
  status : Nat

def idLabel : List Char := "<id>".toList

/-- The labels of a call, if it is counted.
mirrors rest-api/src/middleware/prometheus.rs:34-64 -/
def record (path : List Char) (method : String) (status : Nat) : Option CallLabels :=
  if "/api/v4/".toList <+: path ∧ ¬"node/metrics".toList <:+: path then
    some ⟨replace (idRegex d) idLabel path, method, status⟩
  else none

/-! ## Identifiers in paths -/

inductive IdKind where
  | address
  | channelId
  | peerId
  | socket
  deriving DecidableEq, Repr

def isBase58 (c : Char) : Bool := c.isAlphanum && c != '0' && c != 'O' && c != 'I' && c != 'l'

/-- Display of a number. -/
def decimal (n : Nat) : List Char := Nat.toDigits 10 n

inductive Identifier : IdKind → List Char → Prop where
  | address {hex : List Char} (hlen : hex.length = 40) (hhex : ∀ c ∈ hex, c.isHexDigit = true) :
      Identifier .address ("0x".toList ++ hex)
  | channelId {hex : List Char} (hlen : hex.length = 64) (hhex : ∀ c ∈ hex, c.isHexDigit = true) :
      Identifier .channelId ("0x".toList ++ hex)
  | peerId {b58 : List Char} (hlen : b58.length = 44) (hb58 : ∀ c ∈ b58, isBase58 c = true) :
      Identifier .peerId ("12D3KooW".toList ++ b58)
  | socket (a b c e : UInt8) (port : UInt16) :
      Identifier .socket (decimal a.toNat ++ ('.' :: decimal b.toNat ++ ('.' :: decimal c.toNat ++
        ('.' :: decimal e.toNat ++ '/' :: decimal port.toNat))))

/-- A path with one segment open and no identifier elsewhere. -/
structure Template where
  before : List Char
  after : List Char
  api : "/api/v4/".toList <+: before
  slash : ∃ p, before = p ++ ['/']
  segment : ∀ c ∈ after.head?, c = '/'
  absent_before : Absent (idRegex d) before
  absent_after : Absent (idRegex d) after

/-- The text ends in four numbers and a slash. -/
def EndsInQuad (s : List Char) : Prop := ∃ p w, Lang (quadRegex d) w ∧ s = p ++ (w ++ ['/'])

/-! ## Digits -/

theorem isDigit_of_ascii {c : Char} (h : c.isDigit = true) : d.isDigit c = true := by
  have hc : c.toNat ≤ 57 := (Char.isDigit_iff_toNat.1 h).2
  rw [d.ascii c (by omega), h]

theorem decimal_isDigit (n : Nat) : ∀ c ∈ decimal n, d.isDigit c = true :=
  fun _ hc => isDigit_of_ascii d (Nat.isDigit_of_mem_toDigits (by decide) (by decide) hc)

theorem length_decimal_pos (n : Nat) : 1 ≤ (decimal n).length := Nat.length_toDigits_pos

theorem length_decimal_u8 (n : UInt8) : (decimal n.toNat).length ≤ 3 :=
  (Nat.length_toDigits_le_iff (by decide) (by decide)).2 (Nat.lt_trans n.toNat_lt (by decide))

theorem length_decimal_u16 (n : UInt16) : (decimal n.toNat).length ≤ 5 :=
  (Nat.length_toDigits_le_iff (by decide) (by decide)).2 (Nat.lt_trans n.toNat_lt (by decide))

theorem not_isDigit_dot : d.isDigit '.' = false := d.ascii '.' (by decide)

theorem not_isDigit_slash : d.isDigit '/' = false := d.ascii '/' (by decide)

/-! ## Matching an identifier -/

theorem matchAt_octet (n : UInt8) {s : List Char} (hs : ∀ c ∈ s.head?, d.isDigit c = false) :
    matchAt (octetRegex d) (decimal n.toNat ++ s) = some s :=
  matchAt_between (decimal_isDigit d _) (length_decimal_pos _) (length_decimal_u8 n) hs

theorem matchAt_octet_dot (n : UInt8) {r : Regex Char} {s rest : List Char}
    (h : matchAt r s = some rest) :
    matchAt (seq (octetRegex d) (seq (word ['.']) r)) (decimal n.toNat ++ '.' :: s) =
      some rest := by
  refine matchAt_seq (matchAt_octet d n ?_) (matchAt_seq (matchAt_word ['.'] s) h)
  rintro _ ⟨⟩
  exact not_isDigit_dot d

theorem matchAt_socket (a b c e : UInt8) (port : UInt16) {s : List Char}
    (hs : ∀ c ∈ s.head?, c = '/') :
    matchAt (socketRegex d) (decimal a.toNat ++ ('.' :: decimal b.toNat ++
      ('.' :: decimal c.toNat ++ ('.' :: decimal e.toNat ++ '/' :: decimal port.toNat))) ++ s) =
      some s := by
  have hport : matchAt (between (one d.isDigit) 1 5) (decimal port.toNat ++ s) = some s := by
    refine matchAt_between (decimal_isDigit d _) (length_decimal_pos _) (length_decimal_u16 port) ?_
    intro x hx
    rw [hs x hx]
    exact not_isDigit_slash d
  have hquad : matchAt (quadRegex d) (decimal a.toNat ++ '.' :: (decimal b.toNat ++
      '.' :: (decimal c.toNat ++ '.' :: (decimal e.toNat ++ '/' :: (decimal port.toNat ++ s))))) =
      some ('/' :: (decimal port.toNat ++ s)) := by
    refine matchAt_octet_dot d a (matchAt_octet_dot d b (matchAt_octet_dot d c ?_))
    refine matchAt_octet d e ?_
    rintro _ ⟨⟩
    exact not_isDigit_slash d
  have h : matchAt (socketRegex d) _ = some s :=
    matchAt_seq hquad (matchAt_seq (matchAt_word ['/'] _) hport)
  simpa only [List.append_assoc, List.cons_append, List.nil_append] using h

theorem matchAt_hex {n : Nat} {hex : List Char} (hlen : hex.length = n)
    (hhex : ∀ c ∈ hex, c.isHexDigit = true) (s : List Char) :
    matchAt (hexRegex n) ("0x".toList ++ hex ++ s) = some s := by
  rw [← hlen, List.append_assoc]
  exact matchAt_seq (matchAt_word _ _) (matchAt_exactly hhex s)

theorem lang_hex {n : Nat} {w : List Char} :
    Lang (hexRegex n) w ↔
      ∃ hex : List Char, hex.length = n ∧ (∀ c ∈ hex, c.isHexDigit = true) ∧
        w = "0x".toList ++ hex := by
  simp only [hexRegex, Lang, lang_word, lang_exactly]
  constructor
  · rintro ⟨_, hex, rfl, ⟨hlen, hhex⟩, rfl⟩
    exact ⟨hex, hlen, hhex, rfl⟩
  · rintro ⟨hex, hlen, hhex, rfl⟩
    exact ⟨_, hex, rfl, ⟨hlen, hhex⟩, rfl⟩

theorem lang_peerId {w : List Char} :
    Lang peerIdRegex w ↔ ∃ id : List Char, id.length = 44 ∧ (∀ c ∈ id, c.isAlphanum = true) ∧
      w = "12D3KooW".toList ++ id := by
  simp only [peerIdRegex, Lang, lang_word, lang_exactly]
  constructor
  · rintro ⟨_, id, rfl, ⟨hlen, hid⟩, rfl⟩
    exact ⟨id, hlen, hid, rfl⟩
  · rintro ⟨id, hlen, hid, rfl⟩
    exact ⟨_, id, rfl, ⟨hlen, hid⟩, rfl⟩

theorem lang_octet {w : List Char} :
    Lang (octetRegex d) w ↔ (1 ≤ w.length ∧ w.length ≤ 3) ∧ ∀ c ∈ w, d.isDigit c = true :=
  lang_between (by decide)

theorem lang_socket {w : List Char} :
    Lang (socketRegex d) w ↔ ∃ quad port, Lang (quadRegex d) quad ∧
      ((1 ≤ port.length ∧ port.length ≤ 5) ∧ ∀ c ∈ port, d.isDigit c = true) ∧
      w = quad ++ '/' :: port := by
  simp only [socketRegex, Lang, lang_word]
  constructor
  · rintro ⟨quad, _, hquad, ⟨_, port, rfl, hport, rfl⟩, rfl⟩
    exact ⟨quad, port, hquad, (lang_between (by decide)).1 hport, rfl⟩
  · rintro ⟨quad, port, hquad, hport, rfl⟩
    exact ⟨quad, '/' :: port, hquad, ⟨['/'], port, rfl, (lang_between (by decide)).2 hport, rfl⟩,
      rfl⟩

theorem quad_chars {w : List Char} (h : Lang (quadRegex d) w) :
    ∀ c ∈ w, d.isDigit c = true ∨ c = '.' := by
  have hoctet : ∀ {u}, Lang (octetRegex d) u → ∀ c ∈ u, d.isDigit c = true ∨ c = '.' :=
    fun hu c hc => .inl (((lang_octet d).1 hu).2 c hc)
  simp only [quadRegex, Lang, lang_word] at h
  obtain ⟨a, _, ha, ⟨_, _, rfl, ⟨b, _, hb, ⟨_, _, rfl, ⟨c, _, hc, ⟨_, e, rfl, he, rfl⟩, rfl⟩, rfl⟩,
    rfl⟩, rfl⟩, rfl⟩ := h
  intro x hx
  simp only [List.mem_append, List.mem_singleton] at hx
  rcases hx with hx | rfl | hx | rfl | hx | rfl | hx
  · exact hoctet ha x hx
  · exact .inr rfl
  · exact hoctet hb x hx
  · exact .inr rfl
  · exact hoctet hc x hx
  · exact .inr rfl
  · exact hoctet he x hx

/-- After its first digits an address with a port goes on with a dot. -/
theorem dropWhile_decimal (n : UInt8) (s : List Char) :
    (decimal n.toNat ++ '.' :: s).dropWhile Char.isDigit = '.' :: s := by
  have hd : ∀ c ∈ decimal n.toNat, c.isDigit = true := fun c hc =>
    Nat.isDigit_of_mem_toDigits (by decide) (by decide) hc
  rw [List.dropWhile_append_of_pos hd]
  rfl

theorem idRegex_peerId {b58 s : List Char} (hlen : b58.length = 44)
    (hb58 : ∀ c ∈ b58, isBase58 c = true) :
    matchAt (idRegex d) ("12D3KooW".toList ++ b58 ++ s) = some s := by
  have hnone : ∀ n, matchAt (hexRegex n) ("12D3KooW".toList ++ b58 ++ s) = none := by
    intro n
    rw [matchAt_eq_none]
    intro w rest he hw
    obtain ⟨hex, -, -, rfl⟩ := lang_hex.1 hw
    cases he
  have hpeer : matchAt peerIdRegex ("12D3KooW".toList ++ b58 ++ s) = some s := by
    rw [List.append_assoc]
    refine matchAt_seq (matchAt_word _ _) ?_
    rw [← hlen]
    refine matchAt_exactly (fun c hc => ?_) s
    have hc := hb58 c hc
    simp only [isBase58, Bool.and_eq_true] at hc
    exact hc.1.1.1.1
  unfold idRegex
  rw [matchAt_alt_right (hnone 40), matchAt_alt_right (hnone 64)]
  exact matchAt_alt_left hpeer

/-- A number and a dot: after one digit neither `x` nor `2D` can follow. -/
theorem idRegex_decimal_dot (a : UInt8) (r : List Char) :
    matchAt (idRegex d) (decimal a.toNat ++ '.' :: r) =
      matchAt (socketRegex d) (decimal a.toNat ++ '.' :: r) := by
  have hdot := dropWhile_decimal a
  have hhex : ∀ n, matchAt (hexRegex n) (decimal a.toNat ++ '.' :: r) = none := by
    intro n
    rw [matchAt_eq_none]
    intro w rest he hw
    obtain ⟨hex, -, -, rfl⟩ := lang_hex.1 hw
    have hdrop := hdot r
    rw [he] at hdrop
    cases hdrop
  have hpeer : matchAt peerIdRegex (decimal a.toNat ++ '.' :: r) = none := by
    rw [matchAt_eq_none]
    intro w rest he hw
    obtain ⟨id, -, -, rfl⟩ := lang_peerId.1 hw
    have hdrop := hdot r
    rw [he] at hdrop
    cases hdrop
  unfold idRegex
  rw [matchAt_alt_right (hhex 40), matchAt_alt_right (hhex 64), matchAt_alt_right hpeer]

/-- The whole identifier is matched, if it is not a channel id. -/
theorem idRegex_identifier {k : IdKind} {i : List Char} (h : Identifier k i) (hk : k ≠ .channelId)
    {s : List Char} (hs : ∀ c ∈ s.head?, c = '/') : matchAt (idRegex d) (i ++ s) = some s := by
  cases h with
  | address hlen hhex => exact matchAt_alt_left (matchAt_hex hlen hhex s)
  | channelId => exact absurd rfl hk
  | peerId hlen hb58 => exact idRegex_peerId d hlen hb58
  | socket a b c e port =>
    have hsocket := matchAt_socket d a b c e port hs
    obtain ⟨r, hr⟩ : ∃ r, decimal a.toNat ++ ('.' :: decimal b.toNat ++
        ('.' :: decimal c.toNat ++ ('.' :: decimal e.toNat ++ '/' :: decimal port.toNat))) ++ s =
        decimal a.toNat ++ '.' :: r := ⟨_, by rw [List.append_assoc]; rfl⟩
    rw [hr] at hsocket ⊢
    rw [idRegex_decimal_dot]
    exact hsocket

/-- Of a channel id only 40 digits are: they look like an address. -/
theorem idRegex_channelId {hex : List Char} (hlen : hex.length = 64)
    (hhex : ∀ c ∈ hex, c.isHexDigit = true) (s : List Char) :
    matchAt (idRegex d) ("0x".toList ++ hex ++ s) = some (hex.drop 40 ++ s) := by
  have hsplit : "0x".toList ++ hex ++ s = "0x".toList ++ hex.take 40 ++ (hex.drop 40 ++ s) := by
    rw [List.append_assoc, List.append_assoc, ← List.append_assoc (hex.take 40),
      List.take_append_drop]
  rw [hsplit]
  refine matchAt_alt_left (matchAt_hex (by simp [hlen]) (fun c hc => ?_) _)
  exact hhex c (List.mem_of_mem_take hc)

/-! ## What else is matched -/

theorem isAlphanum_of_isHexDigit {c : Char} (h : c.isHexDigit = true) : c.isAlphanum = true := by
  have hdef : c.isAlphanum = (c.isAlpha || c.isDigit) := rfl
  have halpha : (65 ≤ c.toNat ∧ c.toNat ≤ 90) ∨ (97 ≤ c.toNat ∧ c.toNat ≤ 122) →
      c.isAlpha = true := by
    rw [← Bool.not_eq_false, Text.isAlpha_eq_false_iff]
    omega
  rw [hdef, Bool.or_eq_true]
  simp only [Char.isHexDigit, Bool.or_eq_true, Bool.and_eq_true, decide_eq_true_eq] at h
  rcases h with (h | ⟨hlow, hhigh⟩) | ⟨hlow, hhigh⟩
  · exact .inr h
  · have hlow : 97 ≤ c.toNat := hlow
    have hhigh : c.toNat ≤ 102 := hhigh
    exact .inl (halpha (by omega))
  · have hlow : 65 ≤ c.toNat := hlow
    have hhigh : c.toNat ≤ 70 := hhigh
    exact .inl (halpha (by omega))

theorem notMem_of_isAlphanum {c : Char} {w : List Char} (hc : c.isAlphanum = false)
    (hw : ∀ a ∈ w, a.isAlphanum = true) : c ∉ w := by
  intro hm
  rw [hw c hm] at hc
  cases hc

/-- Only an address with a port has a slash, and it has one. -/
theorem idRegex_cases {w : List Char} (h : Lang (idRegex d) w) :
    (∀ c ∈ w, c.isAlphanum = true) ∨ Lang (socketRegex d) w := by
  have hhex : ∀ n, Lang (hexRegex n) w → ∀ c ∈ w, c.isAlphanum = true := by
    intro n hn c hc
    obtain ⟨hex, -, hhex, rfl⟩ := lang_hex.1 hn
    rcases List.mem_append.1 hc with hc | hc
    · exact List.all_eq_true.1 (by decide : "0x".toList.all Char.isAlphanum = true) c hc
    · exact isAlphanum_of_isHexDigit (hhex c hc)
  rcases h with h | h | h | h
  · exact .inl (hhex 40 h)
  · exact .inl (hhex 64 h)
  · obtain ⟨id, -, hid, rfl⟩ := lang_peerId.1 h
    refine .inl fun c hc => ?_
    rcases List.mem_append.1 hc with hc | hc
    · exact List.all_eq_true.1 (by decide : "12D3KooW".toList.all Char.isAlphanum = true) c hc
    · exact hid c hc
  · exact .inr h

theorem slash_notMem_quad {w : List Char} (h : Lang (quadRegex d) w) : '/' ∉ w := by
  intro hm
  rcases quad_chars d h _ hm with hd | hd
  · rw [not_isDigit_slash d] at hd
    cases hd
  · exact absurd hd (by decide)

theorem lt_notMem {w : List Char} (h : Lang (idRegex d) w) : '<' ∉ w := by
  have hlt : d.isDigit '<' = false := d.ascii '<' (by decide)
  rcases idRegex_cases d h with h | h
  · exact notMem_of_isAlphanum (by decide) h
  · obtain ⟨quad, port, hquad, ⟨-, hport⟩, rfl⟩ := (lang_socket d).1 h
    rw [List.mem_append, List.mem_cons]
    rintro (hm | he | hm)
    · rcases quad_chars d hquad _ hm with hd | hd
      · rw [hlt] at hd
        cases hd
      · exact absurd hd (by decide)
    · exact absurd he (by decide)
    · have hd := hport _ hm
      rw [hlt] at hd
      cases hd

theorem idRegex_ne_nil {w : List Char} (h : Lang (idRegex d) w) : w ≠ [] := by
  rintro rfl
  rcases h with h | h | h | h
  · obtain ⟨_, -, -, he⟩ := lang_hex.1 h
    cases he
  · obtain ⟨_, -, -, he⟩ := lang_hex.1 h
    cases he
  · obtain ⟨_, -, -, he⟩ := lang_peerId.1 h
    cases he
  · obtain ⟨quad, port, -, -, he⟩ := (lang_socket d).1 h
    cases quad <;> cases he

/-- A list is cut at most once at something that is in neither part. -/
theorem cut_unique {x : Char} {a b a' b' : List Char} (h : a ++ x :: b = a' ++ x :: b')
    (ha : x ∉ a) (hb : x ∉ b) : a' = a := by
  rcases List.append_eq_append_iff.1 h with ⟨m, hm, he⟩ | ⟨m, hm, he⟩
  · cases m with
    | nil => rw [hm, List.append_nil]
    | cons y m =>
      obtain ⟨rfl, rfl⟩ := List.cons_eq_cons.1 he
      exact absurd (List.mem_append_right _ List.mem_cons_self) hb
  · cases m with
    | nil => rw [hm, List.append_nil]
    | cons y m =>
      obtain ⟨rfl, -⟩ := List.cons_eq_cons.1 he
      exact absurd (hm ▸ List.mem_append_right _ List.mem_cons_self) ha

/-- What starts before the identifier is not matched: only an address with a port
could reach into it. -/
theorem idRegex_before {before : List Char} (hslash : ∃ p, before = p ++ ['/'])
    (habsent : Absent (idRegex d) before) (hquad : ¬EndsInQuad d before) (s p q : List Char)
    (hpq : before = p ++ q) (hq : q ≠ []) : matchAt (idRegex d) (q ++ s) = none := by
  rw [matchAt_eq_none]
  intro w rest he hw
  rcases List.append_eq_append_iff.1 he with ⟨m, rfl, -⟩ | ⟨m, rfl, -⟩
  · -- the word goes past the end, and has the slash there in it
    obtain ⟨q', rfl⟩ : ∃ q', q = q' ++ ['/'] := by
      obtain ⟨p', hp'⟩ := hslash
      have hlast : q.getLast? = some '/' := by
        rw [← List.getLast?_append_of_ne_nil p hq, ← hpq, hp', List.getLast?_concat]
      obtain ⟨q', hq'⟩ := List.getLast?_eq_some_iff.1 hlast
      exact ⟨q', hq'⟩
    rw [List.append_assoc] at hw
    rcases idRegex_cases d hw with h | h
    · exact notMem_of_isAlphanum (by decide) h (List.mem_append_right _ List.mem_cons_self)
    · obtain ⟨quad, port, hquad', ⟨-, hport⟩, he'⟩ := (lang_socket d).1 h
      have hport' : '/' ∉ port := fun hm => by
        have hd := hport _ hm
        rw [not_isDigit_slash d] at hd
        cases hd
      obtain rfl := cut_unique he'.symm (slash_notMem_quad d hquad') hport'
      exact hquad ⟨p, q', hquad', hpq⟩
  · exact habsent w hw ⟨p, m, by rw [hpq, List.append_assoc]⟩

/-! ## The label -/

section
variable (t : Template d) {k : IdKind} {i : List Char}

theorem replace_identifier (hquad : ¬EndsInQuad d t.before) {rest : List Char}
    (h : matchAt (idRegex d) (i ++ t.after) = some rest) :
    replace (idRegex d) idLabel (t.before ++ (i ++ t.after)) = t.before ++ (idLabel ++ rest) :=
  replace_of_first (idRegex_before d t.slash t.absent_before hquad _) h

theorem exists_digit_of_identifier (h : Identifier k i) : ∃ c r, i = c :: r ∧ c.isDigit = true := by
  cases h with
  | address => exact ⟨'0', _, rfl, by decide⟩
  | channelId => exact ⟨'0', _, rfl, by decide⟩
  | peerId => exact ⟨'1', _, rfl, by decide⟩
  | socket a =>
    cases hd : decimal a.toNat with
    | nil => exact absurd hd Nat.toDigits_ne_nil
    | cons c r =>
      refine ⟨c, _, rfl, ?_⟩
      exact Nat.isDigit_of_mem_toDigits (b := 10) (n := a.toNat) (by decide) (by decide)
        (show c ∈ decimal a.toNat from hd ▸ List.mem_cons_self)

/-- Four numbers and a slash before the identifier are matched with its first digit,
and the label has no `<` where the template had them. -/
theorem replace_ne_of_endsInQuad (hquad : EndsInQuad d t.before) (h : Identifier k i) :
    replace (idRegex d) idLabel (t.before ++ (i ++ t.after)) ≠
      t.before ++ (idLabel ++ t.after) := by
  obtain ⟨p, quad, hq, hbefore⟩ := hquad
  obtain ⟨c, r, rfl, hc⟩ := exists_digit_of_identifier h
  have hsome : ∃ rest, matchAt (idRegex d) (quad ++ '/' :: (c :: r ++ t.after)) = some rest := by
    rw [← Option.ne_none_iff_exists', ne_eq, matchAt_eq_none]
    intro hnone
    have hlang : Lang (idRegex d) (quad ++ '/' :: [c]) := by
      refine .inr (.inr (.inr ((lang_socket d).2 ⟨quad, [c], hq, ⟨by simp, ?_⟩, rfl⟩)))
      simpa using isDigit_of_ascii d hc
    exact hnone _ (r ++ t.after) (by simp) hlang
  obtain ⟨rest, hrest⟩ := hsome
  have hpath : t.before ++ (c :: r ++ t.after) = p ++ (quad ++ '/' :: (c :: r ++ t.after)) := by
    rw [hbefore]
    simp
  obtain ⟨p', q, rest', hsplit, hlen, hm, hreplace⟩ :=
    @exists_replace _ _ idLabel p _ _ hrest
  rw [hpath, hreplace]
  intro he
  -- the match starts inside the text before, where both sides have the same characters
  obtain ⟨w, hw, rfl⟩ := lang_of_matchAt hm
  obtain ⟨a, w, rfl⟩ := List.exists_cons_of_ne_nil (idRegex_ne_nil d hw)
  have hlt : p'.length < t.before.length := by
    rw [hbefore]
    simp
    omega
  have hleft : (p' ++ (idLabel ++ rest'))[p'.length]? = some '<' := by
    rw [List.getElem?_append_right (Nat.le_refl _), Nat.sub_self]
    rfl
  have hright : (t.before ++ (idLabel ++ t.after))[p'.length]? = some a := by
    rw [List.getElem?_append_left hlt]
    have hpath' : (t.before ++ (c :: r ++ t.after))[p'.length]? = some a := by
      rw [hpath, hsplit, List.getElem?_append_right (Nat.le_refl _), Nat.sub_self]
      rfl
    rwa [List.getElem?_append_left hlt] at hpath'
  rw [he, hright] at hleft
  obtain rfl := Option.some.inj hleft
  exact lt_notMem d hw List.mem_cons_self

/-- The path label of a call, if it is counted, is the template with `<id>` in its
open segment, exactly when the identifier is not a channel id and does not follow
four numbers. -/
theorem path_labels_hide_iff (method : String) (status : Nat) (h : Identifier k i) :
    (∀ labels ∈ record d (t.before ++ (i ++ t.after)) method status,
      labels.path = t.before ++ (idLabel ++ t.after)) ↔
    "node/metrics".toList <:+: t.before ++ (i ++ t.after) ∨
      (k ≠ .channelId ∧ ¬EndsInQuad d t.before) := by
  have happ : "/api/v4/".toList <+: t.before ++ (i ++ t.after) :=
    t.api.trans (List.prefix_append _ _)
  by_cases hm : "node/metrics".toList <:+: t.before ++ (i ++ t.after)
  · have hnone : record d (t.before ++ (i ++ t.after)) method status = none :=
      if_neg fun hc => hc.2 hm
    rw [hnone]
    exact ⟨fun _ => .inl hm, fun _ => nofun⟩
  have hrecord : record d (t.before ++ (i ++ t.after)) method status =
      some ⟨replace (idRegex d) idLabel (t.before ++ (i ++ t.after)), method, status⟩ :=
    if_pos ⟨happ, hm⟩
  rw [hrecord]
  simp only [Option.mem_some_iff, forall_eq', hm, false_or]
  constructor
  · intro he
    have hquad : ¬EndsInQuad d t.before := fun hq => replace_ne_of_endsInQuad d t hq h he
    refine ⟨?_, hquad⟩
    rintro rfl
    cases h with
    | channelId hlen hhex =>
      rename_i hex
      rw [replace_identifier d t hquad (idRegex_channelId d hlen hhex t.after)] at he
      -- 24 digits are left over
      have hl := congrArg List.length he
      simp only [List.length_append, List.length_drop, hlen] at hl
      omega
  · rintro ⟨hk, hquad⟩
    exact replace_identifier d t hquad (idRegex_identifier d h hk t.segment)

end

/-! ## Two channels -/

def asciiDigits : UnicodeDigits := ⟨Char.isDigit, fun _ _ => rfl⟩

/-- `/api/v4/peers/{address}/ping`. -/
def pingTemplate : Template asciiDigits where
  before := "/api/v4/peers/".toList
  after := "/ping".toList
  api := by decide
  slash := ⟨"/api/v4/peers".toList, rfl⟩
  segment := fun _ hc => (Option.some.inj hc).symm
  absent_before := absent_iff.2 (by decide)
  absent_after := absent_iff.2 (by decide)

def zeroAddress : List Char := "0x".toList ++ List.replicate 40 '0'

theorem zero_address_hidden :
    (∀ labels ∈ record asciiDigits
        (pingTemplate.before ++ (zeroAddress ++ pingTemplate.after)) "POST" 200,
      labels.path = pingTemplate.before ++ (idLabel ++ pingTemplate.after)) ↔
    "node/metrics".toList <:+: pingTemplate.before ++ (zeroAddress ++ pingTemplate.after) ∨
      (IdKind.address ≠ .channelId ∧ ¬EndsInQuad asciiDigits pingTemplate.before) :=
  path_labels_hide_iff asciiDigits pingTemplate "POST" 200
    (.address rfl (List.all_eq_true.1 (by decide)))

/-- A channel id of one repeated digit. -/
def channelIdOf (c : Char) : List Char := "0x".toList ++ List.replicate 64 c

def labelOf (i : List Char) : Option (List Char) :=
  (record asciiDigits (pingTemplate.before ++ (i ++ pingTemplate.after)) "POST" 404).map
    CallLabels.path

/-- Two channel ids in one place have two labels: the last 24 digits are left. -/
theorem channel_ids_shown :
    Identifier .channelId (channelIdOf 'a') ∧ Identifier .channelId (channelIdOf 'b') ∧
    labelOf (channelIdOf 'a') =
      some (pingTemplate.before ++ (idLabel ++ (List.replicate 24 'a' ++ pingTemplate.after))) ∧
    labelOf (channelIdOf 'a') ≠ some (pingTemplate.before ++ (idLabel ++ pingTemplate.after)) ∧
    labelOf (channelIdOf 'a') ≠ labelOf (channelIdOf 'b') :=
  ⟨.channelId rfl (List.all_eq_true.1 (by decide)), .channelId rfl (List.all_eq_true.1 (by decide)),
    by decide +kernel, by decide +kernel, by decide +kernel⟩

end Hoprd.RestApi.Prometheus
