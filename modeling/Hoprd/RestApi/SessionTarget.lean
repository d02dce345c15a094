import Hoprd.Core.Base64
import Hoprd.Rust
import Hoprd.Text

/-!
# Session targets as text (`rest-api/src/session.rs`)

A target is shown with a mark in front: `$$` before the Base64 of a sealed one,
`#` before the number of a service, nothing before a plain one. The responses of
`create_client` and `list_clients` carry this text and `from_str` reads it back.

* `fromStr_display`: a target is read back unless it is a plain one that starts
  with a mark itself.
* `unambiguous_iff`: those plain targets are exactly the ambiguous ones: nothing
  escapes the marks.
-/
namespace Hoprd.RestApi

open Text (parseU32 parseUnsigned_toDigits)

abbrev ServiceId := UInt32

inductive SessionTargetSpec where
  | plain (target : String)
  | sealed (target : Bytes)
  | service (target : ServiceId)
  deriving DecidableEq, Repr

/-- The engine of the `base64` crate: `decode` fails with the text of its error. -/
structure Engine where
  encode : Bytes → String
  decode : String → Except String Bytes
  decode_encode : ∀ bytes, decode (encode bytes) = .ok bytes

/-- `BASE64_URL_SAFE`, with one text for all its errors. -/
def urlSafe : Engine where
  encode bytes := .ofList (Core.Base64.encode bytes)
  decode s := match Core.Base64.decode s.toList with
    | some bytes => .ok bytes
    | none => .error "invalid input"
  decode_encode bytes := by simp [Core.Base64.decode_encode]

variable (base64 : Engine)

namespace SessionTargetSpec

/-- mirrors rest-api/src/session.rs:48-58 -/
def display : SessionTargetSpec → String
  | .plain t => t
  | .sealed t => "$$" ++ base64.encode t
  | .service t => "#" ++ t.toNat.repr

/-- Fails with the text of a `GeneralError`.
mirrors rest-api/src/session.rs:60-80 -/
def fromStr (s : String) : Except String SessionTargetSpec :=
  match s.toList.dropPrefix? "$$".toList with
  | some stripped => (base64.decode (.ofList stripped)).map .sealed
  | none =>
    match s.toList.dropPrefix? "#".toList with
    | some stripped =>
      match parseU32 stripped with
      | some id => .ok (.service (.ofNat id))
      | none => .error "cannot parse service id"
    | none => .ok (.plain s)

/-- A plain target that starts with the mark of another kind. -/
def Marked : SessionTargetSpec → Prop
  | .plain t => "$$".toList <+: t.toList ∨ "#".toList <+: t.toList
  | _ => False

/-! ## Reading the marks -/

theorem dropMark_append (mark rest : List Char) :
    (mark ++ rest).dropPrefix? mark = some rest :=
  List.dropPrefix?_append_of_beq rest (beq_self_eq_true mark)

theorem dropMark_eq_none {l mark : List Char} :
    l.dropPrefix? mark = none ↔ ¬ mark <+: l := by
  rw [← not_iff_not, ← ne_eq, Option.ne_none_iff_exists', Decidable.not_not]
  constructor
  · rintro ⟨rest, h⟩
    obtain ⟨mark', rfl, hm⟩ := List.dropPrefix?_eq_some_iff.1 h
    exact eq_of_beq hm ▸ List.prefix_append _ _
  · rintro ⟨rest, rfl⟩
    exact ⟨rest, dropMark_append mark rest⟩

theorem fromStr_dollars (rest : String) :
    fromStr base64 ("$$" ++ rest) = (base64.decode rest).map .sealed := by
  have h : ("$$" ++ rest).toList.dropPrefix? "$$".toList = some rest.toList := by
    rw [String.toList_append]
    exact dropMark_append _ _
  simp only [fromStr, h, String.ofList_toList]

theorem fromStr_hash (rest : String) :
    fromStr base64 ("#" ++ rest) = match parseU32 rest.toList with
      | some id => .ok (.service (.ofNat id))
      | none => .error "cannot parse service id" := by
  have h : ("#" ++ rest).toList.dropPrefix? "#".toList = some rest.toList := by
    rw [String.toList_append]
    exact dropMark_append _ _
  have hd : ("#" ++ rest).toList.dropPrefix? "$$".toList = none := by
    rw [dropMark_eq_none, String.toList_append]
    intro hp
    exact absurd (List.cons_prefix_cons.1 hp).1 (by decide)
  simp only [fromStr, hd, h]

theorem fromStr_plain {t : String} (h : ¬ (plain t).Marked) :
    fromStr base64 t = .ok (.plain t) := by
  have hd := dropMark_eq_none.2 fun hp => h (.inl hp)
  have hh := dropMark_eq_none.2 fun hp => h (.inr hp)
  simp only [fromStr, hd, hh]

/-- Whatever is read is not a marked plain target. -/
theorem not_marked_of_fromStr {s : String} {t : SessionTargetSpec}
    (h : fromStr base64 s = .ok t) : ¬ t.Marked := by
  unfold fromStr at h
  split at h
  · rename_i stripped _
    cases hb : base64.decode (.ofList stripped) with
    | error e => rw [hb] at h; cases h
    | ok bytes => rw [hb] at h; cases h; exact id
  · rename_i hd
    split at h
    · split at h
      · cases h; exact id
      · cases h
    · rename_i hh
      cases h
      rintro (hp | hp)
      · exact dropMark_eq_none.1 hd hp
      · exact dropMark_eq_none.1 hh hp

theorem fromStr_display {t : SessionTargetSpec} (h : ¬ t.Marked) :
    fromStr base64 (display base64 t) = .ok t := by
  cases t with
  | plain t => exact fromStr_plain base64 h
  | sealed t =>
    show fromStr base64 ("$$" ++ base64.encode t) = _
    rw [fromStr_dollars, base64.decode_encode]
    rfl
  | service t =>
    have hp : parseU32 t.toNat.repr.toList = some t.toNat := by
      rw [Nat.toList_repr]
      exact parseUnsigned_toDigits t.toNat_lt
    show fromStr base64 ("#" ++ t.toNat.repr) = _
    rw [fromStr_hash, hp]
    simp

theorem display_inj {t t' : SessionTargetSpec} (h : ¬ t.Marked) (h' : ¬ t'.Marked)
    (he : display base64 t = display base64 t') : t = t' := by
  have hr := fromStr_display base64 h
  rw [he, fromStr_display base64 h'] at hr
  exact (Except.ok.inj hr).symm

/-- Two targets are both read back, and told apart by their text, exactly when
neither is a plain one that starts with a mark. -/
theorem unambiguous_iff (t t' : SessionTargetSpec) :
    (fromStr base64 (display base64 t) = .ok t ∧ fromStr base64 (display base64 t') = .ok t' ∧
        (t ≠ t' → display base64 t ≠ display base64 t')) ↔
      ¬ t.Marked ∧ ¬ t'.Marked := by
  constructor
  · rintro ⟨h, h', -⟩
    exact ⟨not_marked_of_fromStr base64 h, not_marked_of_fromStr base64 h'⟩
  · rintro ⟨h, h'⟩
    exact ⟨fromStr_display base64 h, fromStr_display base64 h',
      fun hne he => hne (display_inj base64 h h' he)⟩

/-- The plain target `#5` is shown as service 5 is, and read back as that. -/
theorem plain_hash_shown_as_service :
    fromStr urlSafe (display urlSafe (.plain "#5")) ≠ .ok (.plain "#5") ∧
      display urlSafe (.plain "#5") = display urlSafe (.service 5) ∧
      SessionTargetSpec.plain "#5" ≠ .service 5 := by
  refine ⟨fun h => ?_, by decide, nofun⟩
  exact not_marked_of_fromStr urlSafe h (.inr (by decide))

end SessionTargetSpec

end Hoprd.RestApi
