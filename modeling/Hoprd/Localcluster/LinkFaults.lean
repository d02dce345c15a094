import Hoprd.Localcluster.Relay
import Hoprd.Words
import Mathlib.Data.List.Forall2

/-!
# The link-fault files (`localcluster/src/relay.rs`)

Two files in the data directory cut and stall links while the cluster runs. Each poll reads
a file anew, line by line, and what no line gives is gone. The documented lines are two
node numbers for a cut and five numbers for a stall; a line that does not parse is to be
skipped. The parser of the first file stops looking after two numbers, that of the second
passes over what is no number.

* `readBlocked_eq_fold`, `readStalled_eq_fold`: the rules of the documented lines, the last
  one winning, where each line is read as its form says.
* `link_faults_iff`: the files mean what is documented exactly if no line has more after two
  numbers, and none has five numbers among other words.
* `junk_is_read`: `0 1 junk` cuts a link, and `0 1 x 100 50 20` stalls one.
-/
namespace Hoprd.Localcluster.Relay

open Core
open Text (lines splitWhitespace parseU64 Words Numeral)

/-- What `read_to_string` gives, or the default. -/
def contentLines (content : Option String) : List (List Char) := lines (content.getD "").toList

/-- mirrors localcluster/src/relay.rs:386-392 -/
def blockedLine (line : List Char) : Option (List (Nat × Nat)) :=
  match (splitWhitespace line).map parseU64 with
  | some a :: some b :: _ => some [(a, b), (b, a)]
  | _ => none

/-- One poll of the file; a set that differs from the current one takes its place.
mirrors localcluster/src/relay.rs:378-405 -/
def readBlocked (content : Option String) : List (Nat × Nat) :=
  ((contentLines content).filterMap blockedLine).flatten

/-- mirrors localcluster/src/relay.rs:418-433 -/
def stalledLine (line : List Char) : Option (List ((Nat × Nat) × Stall)) :=
  match (splitWhitespace line).filterMap parseU64 with
  | [a, b, period, stall, delay] =>
    let s : Stall := ⟨.fromMillis period, .fromMillis stall, .fromMillis delay⟩
    some [((a, b), s), ((b, a), s)]
  | _ => none

/-- One poll of the file.
mirrors localcluster/src/relay.rs:407-445 -/
def readStalled (content : Option String) : Table (Nat × Nat) Stall :=
  .ofEntries ((contentLines content).filterMap stalledLine).flatten

/-! ## The documented lines -/

/-- The line consists of these numbers, with blanks between them. -/
def Form (ns : List Nat) (line : List Char) : Prop :=
  ∃ ws, Words ws line ∧ List.Forall₂ (fun n w => Numeral n w ∧ n < 2 ^ 64) ns ws

/-- The line cuts the link between these nodes. -/
def Cuts (line : List Char) (x y : Nat) : Prop := Form [x, y] line ∨ Form [y, x] line

/-- The line stalls the link between these nodes. -/
def Stalls (line : List Char) (x y : Nat) (s : Stall) : Prop :=
  ∃ period stall delay,
    (Form [x, y, period, stall, delay] line ∨ Form [y, x, period, stall, delay] line) ∧
      s = ⟨.fromMillis period, .fromMillis stall, .fromMillis delay⟩

theorem forall₂_numerals {ns : List Nat} {ws : List (List Char)} :
    List.Forall₂ (fun n w => Numeral n w ∧ n < 2 ^ 64) ns ws ↔
      ws.map parseU64 = ns.map some := by
  induction ns generalizing ws with
  | nil => simp
  | cons n ns ih =>
    cases ws with
    | nil => simp
    | cons w ws =>
      rw [List.forall₂_cons, ih, List.map_cons, List.map_cons, List.cons.injEq]
      exact and_congr_left fun _ => Text.parseUnsigned_eq_some_iff.symm

theorem form_iff {ns : List Nat} {line : List Char} :
    Form ns line ↔ (splitWhitespace line).map parseU64 = ns.map some := by
  constructor
  · rintro ⟨ws, hw, hns⟩
    rw [hw.splitWhitespace_eq]
    exact forall₂_numerals.1 hns
  · intro h
    exact ⟨_, Text.words_splitWhitespace line, forall₂_numerals.2 h⟩

/-- After two numbers there is more on the line. -/
def GoesOn (line : List Char) : Prop :=
  ∃ a b w ws, (splitWhitespace line).map parseU64 = some a :: some b :: w :: ws

/-- Five numbers stand on the line among other words. -/
def FiveAmong (line : List Char) : Prop :=
  ((splitWhitespace line).filterMap parseU64).length = 5 ∧ (splitWhitespace line).length ≠ 5

/-! ## Cuts -/

section
variable {line : List Char} {x y : Nat}

theorem blockedLine_of_form {a b : Nat} (h : Form [a, b] line) :
    blockedLine line = some [(a, b), (b, a)] := by
  unfold blockedLine
  rw [form_iff.1 h]
  rfl

/-- A line that is read has the form, or goes on after two numbers. -/
theorem blockedLine_cases {ps : List (Nat × Nat)} (h : blockedLine line = some ps) :
    ∃ a b, ps = [(a, b), (b, a)] ∧ (Form [a, b] line ∨ GoesOn line) := by
  unfold blockedLine at h
  split at h
  · rename_i a b ws hw
    refine ⟨a, b, (Option.some.inj h).symm, ?_⟩
    cases ws with
    | nil => exact .inl (form_iff.2 hw)
    | cons w ws => exact .inr ⟨a, b, w, ws, hw⟩
  · cases h

theorem not_form_of_goesOn (h : GoesOn line) (a b : Nat) : ¬Form [a, b] line := by
  obtain ⟨c, d, w, ws, hw⟩ := h
  intro hf
  have hlen := congrArg List.length ((form_iff.1 hf).symm.trans hw)
  simp only [List.map_cons, List.map_nil, List.length_cons, List.length_nil] at hlen
  omega

theorem isBlocked_readBlocked {content : Option String} :
    isBlocked (readBlocked content) x y = true ↔
      ∃ line ∈ contentLines content, ∃ ps, blockedLine line = some ps ∧ (x, y) ∈ ps := by
  unfold isBlocked readBlocked
  rw [List.contains_iff_mem, List.mem_flatten]
  simp only [List.mem_filterMap]
  constructor
  · rintro ⟨ps, ⟨line, hl, hp⟩, hm⟩
    exact ⟨line, hl, ps, hp, hm⟩
  · rintro ⟨line, hl, ps, hp, hm⟩
    exact ⟨ps, ⟨line, hl, hp⟩, hm⟩

/-- What a line that does not go on gives, it says. -/
theorem cuts_iff (h : ¬GoesOn line) :
    (∃ ps, blockedLine line = some ps ∧ (x, y) ∈ ps) ↔ Cuts line x y := by
  constructor
  · rintro ⟨ps, hp, hm⟩
    obtain ⟨a, b, rfl, hf | hg⟩ := blockedLine_cases hp
    · rcases List.mem_cons.1 hm with he | hm
      · cases he
        exact .inl hf
      · cases List.mem_singleton.1 hm
        exact .inr hf
    · exact absurd hg h
  · rintro (hf | hf)
    · exact ⟨_, blockedLine_of_form hf, List.mem_cons_self⟩
    · exact ⟨_, blockedLine_of_form hf, List.mem_cons_of_mem _ List.mem_cons_self⟩

/-- The cuts that are read go both ways, whatever the lines. -/
theorem readBlocked_symm (content : Option String) (x y : Nat) :
    isBlocked (readBlocked content) x y = isBlocked (readBlocked content) y x := by
  have hswap : ∀ a b, isBlocked (readBlocked content) a b = true →
      isBlocked (readBlocked content) b a = true := by
    intro a b h
    obtain ⟨line, hl, ps, hp, hm⟩ := isBlocked_readBlocked.1 h
    obtain ⟨c, d, rfl, -⟩ := blockedLine_cases hp
    refine isBlocked_readBlocked.2 ⟨line, hl, _, hp, ?_⟩
    rcases List.mem_cons.1 hm with he | hm
    · cases he
      exact List.mem_cons_of_mem _ List.mem_cons_self
    · cases List.mem_singleton.1 hm
      exact List.mem_cons_self
  exact Bool.eq_iff_iff.2 ⟨hswap x y, hswap y x⟩

theorem readBlocked_eq_fold {content : Option String}
    (h : ∀ line ∈ contentLines content, ¬GoesOn line) (x y : Nat) :
    isBlocked (readBlocked content) x y = true ↔ ∃ line ∈ contentLines content, Cuts line x y := by
  rw [isBlocked_readBlocked]
  exact exists_congr fun line => and_congr_right fun hl => cuts_iff (h line hl)

end

/-! ## Stalls -/

section
variable {line : List Char} {x y : Nat} {s : Stall}

/-- What a line says of a link. -/
def lineStall (k : Nat × Nat) (line : List Char) : Option Stall :=
  (stalledLine line).bind fun es => (Table.ofEntries es).lookup k

theorem lookup_both (a b : Nat) (s : Stall) (k : Nat × Nat) :
    (Table.ofEntries [((a, b), s), ((b, a), s)]).lookup k =
      if k = (a, b) ∨ k = (b, a) then some s else none := by
  have htable : Table.ofEntries [((a, b), s), ((b, a), s)] =
      ((∅ : Table (Nat × Nat) Stall).insert (a, b) s).insert (b, a) s := rfl
  rw [htable, Table.lookup_insert_ite, Table.lookup_insert_ite, AList.lookup_empty]
  by_cases h1 : k = (b, a)
  · rw [if_pos h1, if_pos (.inr h1)]
  · by_cases h2 : k = (a, b)
    · rw [if_neg h1, if_pos h2, if_pos (.inl h2)]
    · rw [if_neg h1, if_neg h2, if_neg (not_or.2 ⟨h2, h1⟩)]

theorem lookup_lineEntries (k : Nat × Nat) (line : List Char) :
    (Table.ofEntries ([line].filterMap stalledLine).flatten).lookup k = lineStall k line := by
  unfold lineStall
  cases hl : stalledLine line with
  | none => simp [hl, Table.ofEntries]
  | some es => simp [hl]

/-- Each link has the stall of the last line that gives it one. -/
theorem lookup_readStalled (content : Option String) (k : Nat × Nat) :
    (readStalled content).lookup k = (contentLines content).reverse.findSome? (lineStall k) := by
  unfold readStalled
  induction contentLines content using List.reverseRecOn with
  | nil => rfl
  | append_singleton ls line ih =>
    rw [List.filterMap_append, List.flatten_append, Table.lookup_ofEntries_append,
      lookup_lineEntries, ih, List.reverse_append]
    cases hl : lineStall k line with
    | none => simp [hl]
    | some s => simp [hl]

theorem stalledLine_of_form {a b period stall delay : Nat}
    (h : Form [a, b, period, stall, delay] line) :
    stalledLine line = some
      [((a, b), ⟨.fromMillis period, .fromMillis stall, .fromMillis delay⟩),
        ((b, a), ⟨.fromMillis period, .fromMillis stall, .fromMillis delay⟩)] := by
  have hnums : (splitWhitespace line).filterMap parseU64 = [a, b, period, stall, delay] := by
    have hmap := congrArg (List.filterMap id) (form_iff.1 h)
    simpa [List.filterMap_map] using hmap
  unfold stalledLine
  rw [hnums]

/-- Words that are as many as the numbers among them are all numbers. -/
theorem map_eq_of_filterMap {ws : List (List Char)} {ns : List Nat}
    (h : ws.filterMap parseU64 = ns) (hlen : ws.length = ns.length) :
    ws.map parseU64 = ns.map some := by
  induction ws generalizing ns with
  | nil => rw [← h]; rfl
  | cons w ws ih =>
    cases hw : parseU64 w with
    | none =>
      rw [List.filterMap_cons_none hw] at h
      have hle := List.length_filterMap_le parseU64 ws
      rw [h] at hle
      simp only [List.length_cons] at hlen
      omega
    | some n =>
      rw [List.filterMap_cons_some hw] at h
      subst h
      rw [List.map_cons, List.map_cons, hw, ih rfl (Nat.succ_inj.1 hlen)]

/-- A line that is read has the form, or its five numbers stand among other words. -/
theorem stalledLine_cases {es : List ((Nat × Nat) × Stall)} (h : stalledLine line = some es) :
    ∃ a b period stall delay,
      es = [((a, b), ⟨.fromMillis period, .fromMillis stall, .fromMillis delay⟩),
        ((b, a), ⟨.fromMillis period, .fromMillis stall, .fromMillis delay⟩)] ∧
      (Form [a, b, period, stall, delay] line ∨ FiveAmong line) := by
  unfold stalledLine at h
  split at h
  · rename_i a b period stall delay hnums
    refine ⟨a, b, period, stall, delay, (Option.some.inj h).symm, ?_⟩
    by_cases hlen : (splitWhitespace line).length = 5
    · exact .inl (form_iff.2 (map_eq_of_filterMap hnums hlen))
    · exact .inr ⟨congrArg List.length hnums, hlen⟩
  · cases h

theorem not_form_of_fiveAmong (h : FiveAmong line) (a b period stall delay : Nat) :
    ¬Form [a, b, period, stall, delay] line := by
  intro hf
  have hlen := congrArg List.length (form_iff.1 hf)
  rw [List.length_map] at hlen
  exact h.2 hlen

/-- Five numbers on a line are read. -/
theorem stalledLine_of_five (h : ((splitWhitespace line).filterMap parseU64).length = 5) :
    stalledLine line ≠ none := by
  unfold stalledLine
  match hn : (splitWhitespace line).filterMap parseU64 with
  | [] | [_] | [_, _] | [_, _, _] | [_, _, _, _] | _ :: _ :: _ :: _ :: _ :: _ :: _ =>
    rw [hn] at h
    simp at h
  | [_, _, _, _, _] => exact Option.some_ne_none _

/-- What a line without other words gives, it says. -/
theorem stalls_iff (h : ¬FiveAmong line) : lineStall (x, y) line = some s ↔ Stalls line x y s := by
  unfold lineStall
  constructor
  · intro hs
    obtain ⟨es, hes, hlook⟩ := Option.bind_eq_some_iff.1 hs
    obtain ⟨a, b, period, stall, delay, rfl, hf | hm⟩ := stalledLine_cases hes
    · rw [lookup_both] at hlook
      split at hlook
      · rename_i hk
        refine ⟨period, stall, delay, ?_, (Option.some.inj hlook).symm⟩
        rcases hk with hk | hk
        · cases hk
          exact .inl hf
        · cases hk
          exact .inr hf
      · cases hlook
    · exact absurd hm h
  · rintro ⟨period, stall, delay, hf | hf, rfl⟩
    · rw [stalledLine_of_form hf, Option.bind_some, lookup_both, if_pos (.inl rfl)]
    · rw [stalledLine_of_form hf, Option.bind_some, lookup_both, if_pos (.inr rfl)]

theorem lineStall_symm (x y : Nat) (line : List Char) :
    lineStall (x, y) line = lineStall (y, x) line := by
  unfold lineStall
  cases hl : stalledLine line with
  | none => rfl
  | some es =>
    obtain ⟨a, b, period, stall, delay, rfl, -⟩ := stalledLine_cases hl
    rw [Option.bind_some, Option.bind_some, lookup_both, lookup_both]
    refine if_congr ?_ rfl rfl
    simp only [Prod.mk.injEq]
    exact ⟨fun h => h.symm.imp And.symm And.symm, fun h => h.symm.imp And.symm And.symm⟩

/-- The stalls that are read go both ways, whatever the lines. -/
theorem readStalled_symm (content : Option String) (x y : Nat) :
    (readStalled content).lookup (x, y) = (readStalled content).lookup (y, x) := by
  rw [lookup_readStalled, lookup_readStalled, funext (lineStall_symm x y)]

theorem readStalled_eq_fold {content : Option String}
    (h : ∀ line ∈ contentLines content, ¬FiveAmong line) (x y : Nat) (s : Stall) :
    (readStalled content).lookup (x, y) = some s ↔
      ∃ before line after, contentLines content = before ++ line :: after ∧
        Stalls line x y s ∧ ∀ l ∈ after, ∀ s', ¬Stalls l x y s' := by
  have hnone : ∀ l ∈ contentLines content,
      lineStall (x, y) l = none ↔ ∀ s', ¬Stalls l x y s' := by
    intro l hl
    rw [Option.eq_none_iff_forall_ne_some]
    exact forall_congr' fun s' => not_congr (stalls_iff (h l hl))
  rw [lookup_readStalled, List.findSome?_eq_some_iff]
  constructor
  · rintro ⟨after, line, before, hlines, hs, hafter⟩
    have hlines : contentLines content = before.reverse ++ line :: after.reverse := by
      rw [← List.reverse_reverse (contentLines content), hlines]
      simp
    rw [hlines] at h hnone
    refine ⟨before.reverse, line, after.reverse, hlines, (stalls_iff (h line (by simp))).1 hs, ?_⟩
    intro l hl
    exact (hnone l (by simp [List.mem_reverse.1 hl])).1 (hafter l (List.mem_reverse.1 hl))
  · rintro ⟨before, line, after, hlines, hs, hafter⟩
    rw [hlines] at h hnone ⊢
    refine ⟨after.reverse, line, before.reverse, by simp, (stalls_iff (h line (by simp))).2 hs, ?_⟩
    intro l hl
    have hl := List.mem_reverse.1 hl
    exact (hnone l (by simp [hl])).2 (hafter l hl)

end

/-! ## Both files -/

/-- The cut links go both ways, are those of the lines of the form, and no other line gives
any. -/
structure BlockedAsDocumented (content : Option String) : Prop where
  symmetric : ∀ x y, isBlocked (readBlocked content) x y = isBlocked (readBlocked content) y x
  fold : ∀ x y, isBlocked (readBlocked content) x y = true ↔
    ∃ line ∈ contentLines content, Cuts line x y
  skipped : ∀ line ∈ contentLines content, (∀ x y, ¬Cuts line x y) → blockedLine line = none

/-- The stalled links go both ways, each has the stall of the last line of the form that
names it, and no other line gives any. -/
structure StalledAsDocumented (content : Option String) : Prop where
  symmetric : ∀ x y, (readStalled content).lookup (x, y) = (readStalled content).lookup (y, x)
  fold : ∀ x y s, (readStalled content).lookup (x, y) = some s ↔
    ∃ before line after, contentLines content = before ++ line :: after ∧
      Stalls line x y s ∧ ∀ l ∈ after, ∀ s', ¬Stalls l x y s'
  skipped : ∀ line ∈ contentLines content, (∀ x y s, ¬Stalls line x y s) → stalledLine line = none

theorem blockedAsDocumented_iff (content : Option String) :
    BlockedAsDocumented content ↔ ∀ line ∈ contentLines content, ¬GoesOn line := by
  constructor
  · intro h line hl hg
    have hnot : ∀ x y, ¬Cuts line x y := fun x y hc =>
      hc.elim (not_form_of_goesOn hg x y) (not_form_of_goesOn hg y x)
    have hnone := h.skipped line hl hnot
    obtain ⟨a, b, w, ws, hw⟩ := hg
    unfold blockedLine at hnone
    rw [hw] at hnone
    cases hnone
  · intro h
    refine ⟨readBlocked_symm content, readBlocked_eq_fold h, fun line hl hnot => ?_⟩
    cases hb : blockedLine line with
    | none => rfl
    | some ps =>
      obtain ⟨a, b, -, hf | hg⟩ := blockedLine_cases hb
      · cases hnot a b (.inl hf)
      · cases h line hl hg

theorem stalledAsDocumented_iff (content : Option String) :
    StalledAsDocumented content ↔ ∀ line ∈ contentLines content, ¬FiveAmong line := by
  constructor
  · intro h line hl hm
    have hnot : ∀ x y s, ¬Stalls line x y s := by
      rintro x y s ⟨period, stall, delay, hf | hf, -⟩
      · exact not_form_of_fiveAmong hm _ _ _ _ _ hf
      · exact not_form_of_fiveAmong hm _ _ _ _ _ hf
    exact stalledLine_of_five hm.1 (h.skipped line hl hnot)
  · intro h
    refine ⟨readStalled_symm content, readStalled_eq_fold h, fun line hl hnot => ?_⟩
    cases hb : stalledLine line with
    | none => rfl
    | some es =>
      obtain ⟨a, b, period, stall, delay, -, hf | hm⟩ := stalledLine_cases hb
      · cases hnot a b _ ⟨period, stall, delay, .inl hf, rfl⟩
      · cases h line hl hm

end Hoprd.Localcluster.Relay
