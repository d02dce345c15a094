import Hoprd.RestApi.Auth
import Hoprd.Text

/-!
# Which API tokens are accepted and which work

A token comes from the configuration file, where `validate_api_auth` checks its
length, or from the command line, where `parse_api_token` checks the length of
the argument and then takes its quotes off (`hoprd/src/cli.rs`,
`rest-api/src/config.rs`). It is presented in the bytes of a header value, which
the middleware reads as text first.

* `accepted_iff`: six bytes are enough to be accepted.
* `accepted_works_iff`: an accepted token works when it has eight bytes, and
  the text of every header that carries it can be read.
* `exists_forwarded_iff`: otherwise it locks everybody out.
-/
namespace Hoprd.RestApi

open Config (Auth)
open Text (utf8 utf8_inj utf8_append)

/-- mirrors rest-api/src/config.rs:9 -/
def MINIMAL_API_TOKEN_LENGTH : Nat := 8

/-- mirrors rest-api/src/config.rs:11-22 -/
def validateApiAuth (token : Auth) : Except String Unit :=
  match token with
  | .none => .ok ()
  | .token token =>
    if MINIMAL_API_TOKEN_LENGTH ≤ (utf8 token).length then .ok ()
    else .error "The API token is too short"

/-- mirrors hoprd/src/cli.rs:94-117 -/
def parseApiToken (s : String) : Except String String :=
  if (utf8 s).length < MINIMAL_API_TOKEN_LENGTH then
    .error ("Length of API token is too short, minimally required " ++
      MINIMAL_API_TOKEN_LENGTH.repr ++ " but given " ++ (utf8 s).length.repr)
  else
    match s.toList.head? == some '\'', s.toList.getLast? == some '\'' with
    | true, true =>
      match s.toList.dropPrefix? ['\''] with
      | none => .error "failed to parse strip prefix part"
      | some s =>
        match s.dropSuffix? ['\''] with
        | none => .error "failed to parse strip suffix part"
        | some s => .ok (.ofList s)
    | true, false => .error "Found leading quote but no trailing quote"
    | false, true => .error "Found trailing quote but no leading quote"
    | false, false => .ok s

/-- The token is taken from the file or from the command line. -/
def Accepted (token : String) : Prop :=
  validateApiAuth (.token token) = .ok () ∨ ∃ s, parseApiToken s = .ok token

/-! ## Header values -/

/-- A byte that is text to `HeaderValue::to_str`. -/
def VisibleAscii (b : UInt8) : Prop := (32 ≤ b ∧ b < 127) ∨ b = 9

/-- A byte that `HeaderValue::from_bytes` takes. -/
def Permitted (b : UInt8) : Prop := (32 ≤ b ∧ b ≠ 127) ∨ b = 9

instance (b : UInt8) : Decidable (VisibleAscii b) := inferInstanceAs (Decidable (_ ∨ _))

instance (b : UInt8) : Decidable (Permitted b) := inferInstanceAs (Decidable (_ ∨ _))

/-- The header values of the `http` crate: which bytes they have and when they
are text. -/
structure HeaderValues where
  Value : Type
  bytes : Value → Bytes
  toStr : Value → Option String
  exists_bytes_iff : ∀ bs, (∃ v, bytes v = bs) ↔ ∀ b ∈ bs, Permitted b
  toStr_iff : ∀ v s, toStr v = some s ↔ (∀ b ∈ bytes v, VisibleAscii b) ∧ bytes v = utf8 s

variable (http : HeaderValues)

/-- The header carries the token, whatever its bytes are. -/
inductive Carries (token : String) : String × http.Value → Prop where
  | bearer (v : http.Value) (scheme : String) (h : http.bytes v = utf8 (scheme ++ " " ++ token))
      (hs : eqIgnoreAsciiCase scheme "bearer" = true) : Carries token ("authorization", v)
  | xAuthToken (v : http.Value) (h : http.bytes v = utf8 token) : Carries token ("x-auth-token", v)

/-- The token is valid, and presenting it is what gets a request through. -/
structure Works (token : String) : Prop where
  valid : validateApiAuth (.token token) = .ok ()
  forwarded : ∀ headers, (∃ header ∈ headers, Carries http token header) →
    authenticate http.toStr (.token token) headers = .next
  refused : ∀ headers, (¬∃ header ∈ headers, Carries http token header) →
    authenticate http.toStr (.token token) headers ≠ .next

def Readable (token : String) : Prop := ∀ b ∈ utf8 token, VisibleAscii b

/-- Some header value has the bytes of the token. -/
def Sendable (token : String) : Prop := ∀ b ∈ utf8 token, Permitted b

instance (token : String) : Decidable (Readable token) :=
  List.decidableBAll _ (utf8 token)

instance (token : String) : Decidable (Sendable token) :=
  List.decidableBAll _ (utf8 token)

/-! ## What is accepted -/

theorem validateApiAuth_iff (token : String) :
    validateApiAuth (.token token) = .ok () ↔ 8 ≤ (utf8 token).length := by
  by_cases h : MINIMAL_API_TOKEN_LENGTH ≤ (utf8 token).length
  · exact ⟨fun _ => h, fun _ => if_pos h⟩
  · refine ⟨fun he => ?_, fun hl => absurd hl h⟩
    simp only [validateApiAuth, if_neg h] at he
    cases he

theorem length_utf8_quoted {s t : String} (h : s.toList = '\'' :: (t.toList ++ ['\''])) :
    (utf8 s).length = (utf8 t).length + 2 := by
  have hq : String.utf8EncodeChar '\'' = [39] := rfl
  simp [utf8, h, hq]

theorem quoted_of_parseApiToken {s token : String} (h : parseApiToken s = .ok token) :
    8 ≤ (utf8 s).length ∧ (s = token ∨ s.toList = '\'' :: (token.toList ++ ['\''])) := by
  unfold parseApiToken at h
  split at h
  · cases h
  rename_i hlen
  refine ⟨Nat.le_of_not_lt hlen, ?_⟩
  split at h
  · split at h
    · cases h
    rename_i rest hp
    split at h
    · cases h
    rename_i inner hs
    cases h
    obtain ⟨p, he, hb⟩ := List.dropPrefix?_eq_some_iff.1 hp
    obtain ⟨q, hr, hc⟩ := List.dropSuffix?_eq_some_iff.1 hs
    obtain rfl := eq_of_beq hb
    obtain rfl := eq_of_beq hc
    exact .inr (by rw [he, hr, String.toList_ofList]; rfl)
  · cases h
  · cases h
  · cases h
    exact .inl rfl

theorem parseApiToken_quoted {token : String} (h : 6 ≤ (utf8 token).length) :
    parseApiToken (.ofList ('\'' :: (token.toList ++ ['\'']))) = .ok token := by
  have hl := length_utf8_quoted
    (String.toList_ofList (l := '\'' :: (token.toList ++ ['\''])))
  have hlen : ¬ (utf8 (.ofList ('\'' :: (token.toList ++ ['\''])))).length <
      MINIMAL_API_TOKEN_LENGTH := by
    unfold MINIMAL_API_TOKEN_LENGTH
    omega
  have hp : ('\'' :: (token.toList ++ ['\''])).dropPrefix? ['\''] =
      some (token.toList ++ ['\'']) :=
    List.dropPrefix?_eq_some_iff.2 ⟨_, rfl, beq_self_eq_true _⟩
  have hs : (token.toList ++ ['\'']).dropSuffix? ['\''] = some token.toList :=
    List.dropSuffix?_eq_some_iff.2 ⟨_, rfl, beq_self_eq_true _⟩
  have hlast : ('\'' :: (token.toList ++ ['\''])).getLast? = some '\'' := by
    rw [← List.cons_append, List.getLast?_concat]
  simp only [parseApiToken, if_neg hlen, String.toList_ofList, List.head?_cons, hlast,
    beq_self_eq_true, hp, hs, String.ofList_toList]

/-- Quotes count towards the length that the command line asks for. -/
theorem accepted_iff (token : String) : Accepted token ↔ 6 ≤ (utf8 token).length := by
  constructor
  · rintro (h | ⟨s, h⟩)
    · have := (validateApiAuth_iff token).1 h
      omega
    · obtain ⟨hlen, rfl | hq⟩ := quoted_of_parseApiToken h
      · omega
      · have := length_utf8_quoted hq
        omega
  · intro h
    exact .inr ⟨_, parseApiToken_quoted h⟩

/-! ## What works -/

theorem visibleAscii_of_isAlpha {c : Char} (h : c.isAlpha = true) :
    ∀ b ∈ String.utf8EncodeChar c, VisibleAscii b := by
  have hc : 65 ≤ c.toNat ∧ c.toNat ≤ 122 := by
    rw [← Bool.not_eq_false, Text.isAlpha_eq_false_iff] at h
    omega
  intro b hb
  rw [Text.utf8EncodeChar_of_ascii (by omega), List.mem_singleton] at hb
  have hn : b.toNat = c.toNat := by
    rw [hb, UInt8.toNat_ofNat']
    omega
  refine .inl ⟨?_, ?_⟩
  · rw [UInt8.le_iff_toNat_le, hn]
    exact Nat.le_trans (by decide) hc.1
  · rw [UInt8.lt_iff_toNat_lt, hn]
    exact Nat.lt_of_le_of_lt hc.2 (by decide)

theorem visibleAscii_of_bearer {scheme : String} (h : eqIgnoreAsciiCase scheme "bearer" = true) :
    ∀ b ∈ utf8 scheme, VisibleAscii b := by
  intro b hb
  obtain ⟨c, hc, hb⟩ := List.mem_flatMap.1 hb
  have hm := List.mem_map_of_mem (f := Char.toLower) hc
  rw [eq_of_beq h] at hm
  have hall : ∀ d ∈ "bearer".toList.map Char.toLower, d.isAlpha = true :=
    List.all_eq_true.1 (by decide)
  have ha := hall _ hm
  rw [Text.isAlpha_toLower] at ha
  exact visibleAscii_of_isAlpha ha b hb

/-- The middleware recognises a token in the headers that carry it, if it is text. -/
theorem presents_iff (token : String) (header : String × http.Value) :
    Presents http.toStr token header ↔ Carries http token header ∧ Readable token := by
  constructor
  · intro h
    cases h with
    | bearer v scheme hv hs =>
      obtain ⟨hvis, hb⟩ := (http.toStr_iff v _).1 hv
      refine ⟨.bearer v scheme hb hs, fun b hm => hvis b ?_⟩
      rw [hb, utf8_append]
      exact List.mem_append_right _ hm
    | xAuthToken v hv =>
      obtain ⟨hvis, hb⟩ := (http.toStr_iff v _).1 hv
      exact ⟨.xAuthToken v hb, fun b hm => hvis b (hb ▸ hm)⟩
  · rintro ⟨h, ht⟩
    cases h with
    | bearer v scheme hb hs =>
      refine .bearer v scheme ((http.toStr_iff v _).2 ⟨?_, hb⟩) hs
      intro b hm
      rw [hb, utf8_append, utf8_append, List.mem_append, List.mem_append] at hm
      rcases hm with (hm | hm) | hm
      · exact visibleAscii_of_bearer hs b hm
      · have hspace : Readable " " := by decide
        exact hspace b hm
      · exact ht b hm
    | xAuthToken v hb => exact .xAuthToken v ((http.toStr_iff v _).2 ⟨hb ▸ ht, hb⟩)

theorem sendable_of_carries {token : String} {header : String × http.Value}
    (h : Carries http token header) : Sendable token := by
  have hp : ∀ v : http.Value, ∀ b ∈ http.bytes v, Permitted b := fun v =>
    (http.exists_bytes_iff _).1 ⟨v, rfl⟩
  cases h with
  | bearer v scheme hb =>
    intro b hm
    refine hp v b ?_
    rw [hb, utf8_append]
    exact List.mem_append_right _ hm
  | xAuthToken v hb => exact fun b hm => hp v b (hb ▸ hm)

theorem carries_of_forwarded {token : String} {headers : HeaderMap http.Value}
    (h : authenticate http.toStr (.token token) headers = .next) :
    Readable token ∧ ∃ header ∈ headers, Carries http token header := by
  obtain ⟨header, hm, hp⟩ := (authenticate_token_iff _ _ _).1 h
  obtain ⟨hc, ht⟩ := (presents_iff http token header).1 hp
  exact ⟨ht, header, hm, hc⟩

theorem exists_header (token : String) (h : Sendable token) :
    ∃ v, Carries http token ("x-auth-token", v) := by
  obtain ⟨v, hv⟩ := (http.exists_bytes_iff (utf8 token)).2 h
  exact ⟨v, .xAuthToken v hv⟩

theorem works_iff (token : String) :
    Works http token ↔ 8 ≤ (utf8 token).length ∧ (Sendable token → Readable token) := by
  constructor
  · rintro ⟨hvalid, hforwarded, -⟩
    refine ⟨(validateApiAuth_iff token).1 hvalid, fun hs => ?_⟩
    obtain ⟨v, hc⟩ := exists_header http token hs
    exact (carries_of_forwarded http (hforwarded [_] ⟨_, List.mem_singleton_self _, hc⟩)).1
  · rintro ⟨hlen, hr⟩
    refine ⟨(validateApiAuth_iff token).2 hlen, ?_, ?_⟩
    · rintro headers ⟨header, hm, hc⟩
      have ht := hr (sendable_of_carries http hc)
      have hp := (presents_iff http token header).2 ⟨hc, ht⟩
      exact (authenticate_token_iff _ _ _).2 ⟨header, hm, hp⟩
    · intro headers hn h
      exact hn (carries_of_forwarded http h).2

theorem toNat_lt_of_visibleAscii {b : UInt8} (h : VisibleAscii b) : b.toNat < 128 := by
  rcases h with ⟨-, h⟩ | rfl
  · exact Nat.lt_of_lt_of_le (UInt8.lt_iff_toNat_lt.1 h) (by decide)
  · decide

theorem permitted_of_visibleAscii {b : UInt8} (h : VisibleAscii b) : Permitted b := by
  rcases h with ⟨hlo, hhi⟩ | h
  · exact .inl ⟨hlo, fun e => absurd hhi (by rw [e]; decide)⟩
  · exact .inr h

/-- Some request gets through exactly when the token is text. -/
theorem exists_forwarded_iff (token : String) :
    (∃ headers, authenticate http.toStr (.token token) headers = .next) ↔ Readable token := by
  constructor
  · rintro ⟨headers, h⟩
    exact (carries_of_forwarded http h).1
  · intro h
    obtain ⟨v, hc⟩ := exists_header http token fun b hb => permitted_of_visibleAscii (h b hb)
    have hp := (presents_iff http token _).2 ⟨hc, h⟩
    exact ⟨[("x-auth-token", v)],
      (authenticate_token_iff _ _ _).2 ⟨_, List.mem_singleton_self _, hp⟩⟩

/-- An accepted token works exactly when it has eight bytes of its own and is
text in every header that carries it. -/
theorem accepted_works_iff (token : String) :
    (Accepted token → Works http token) ↔
      (utf8 token).length < 6 ∨
        (8 ≤ (utf8 token).length ∧ (Sendable token → Readable token)) := by
  rw [works_iff, accepted_iff]
  constructor
  · intro h
    by_cases h6 : 6 ≤ (utf8 token).length
    · exact .inr (h h6)
    · exact .inl (Nat.lt_of_not_le h6)
  · rintro (h | h) h6
    · omega
    · exact h

/-! ## Accepted tokens that do not work -/

/-- Header values by their bytes. -/
def byteValues : HeaderValues where
  Value := { bs : Bytes // ∀ b ∈ bs, Permitted b }
  bytes v := v.1
  toStr v := if v.1.all fun b => decide (VisibleAscii b) then
      some (.ofList (v.1.map fun b => .ofNat b.toNat)) else none
  exists_bytes_iff bs := ⟨fun ⟨v, hv⟩ => hv ▸ v.2, fun h => ⟨⟨bs, h⟩, rfl⟩⟩
  toStr_iff v s := by
    have hall : (v.1.all fun b => decide (VisibleAscii b)) = true ↔ ∀ b ∈ v.1, VisibleAscii b := by
      rw [List.all_eq_true]
      simp only [decide_eq_true_eq]
    split
    · next hvis =>
      rw [hall] at hvis
      have hb : utf8 (.ofList (v.1.map fun b => .ofNat b.toNat)) = v.1 :=
        Text.utf8_ofAscii fun b hm => toNat_lt_of_visibleAscii (hvis b hm)
      rw [Option.some_inj]
      refine ⟨fun h => ⟨hvis, h ▸ hb.symm⟩, fun h => utf8_inj.1 (hb.trans h.2)⟩
    · next hvis =>
      rw [hall] at hvis
      exact ⟨fun h => (Option.some_ne_none _ h.symm).elim, fun h => absurd h.1 hvis⟩

/-- `'abcdef'` is accepted on the command line, and its six bytes are not valid;
`pässwörd` is valid, and the header that carries it is turned away. -/
theorem accepted_tokens_that_fail :
    (parseApiToken "'abcdef'" = .ok "abcdef" ∧
      validateApiAuth (.token "abcdef") ≠ .ok ()) ∧
    (validateApiAuth (.token "pässwörd") = .ok () ∧ Sendable "pässwörd" ∧
      ∀ headers, authenticate byteValues.toStr (.token "pässwörd") headers ≠ .next) ∧
    ¬∀ token, Accepted token → Works byteValues token := by
  have hp : ∀ headers, authenticate byteValues.toStr (.token "pässwörd") headers ≠ .next :=
    fun headers h => absurd ((exists_forwarded_iff byteValues _).1 ⟨headers, h⟩) (by decide)
  refine ⟨⟨rfl, by decide⟩, ⟨rfl, by decide, hp⟩, fun h => ?_⟩
  obtain ⟨v, hc⟩ := exists_header byteValues "pässwörd" (by decide)
  exact hp _ ((h "pässwörd" (.inl rfl)).forwarded _ ⟨_, List.mem_singleton_self _, hc⟩)

end Hoprd.RestApi
