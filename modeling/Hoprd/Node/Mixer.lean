import Hoprd.Core.IndexMap
import Hoprd.Node.LibConfig
import Hoprd.Text

/-!
# The mixer section of a configuration file (`hoprd/src/config.rs`)

A mixer section has one of two shapes: the current `{ capacity, mixer_type }`,
where the engine may be left out, and the flat one of before, where everything
may be. `deserialize_mixer_config` takes the first that the section has.

* `currentMixerConfig_map`, `legacyMixerConfig_map`: the sections of each shape.
* `shapes_agree`: a section of both shapes means the same in both.
* `mixer_documents_compatible`: what is written is kept, what is missing is the
  uniform default, and nothing else is taken.
-/
namespace Hoprd.Config

open Core.IndexMap (Distinct get? get?_eq_some get?_eq_none mem_of_get?)

/-- A value of a configuration file as `serde` buffers it, the keys of a mapping
being text. -/
inductive Content where
  | null
  | bool (b : Bool)
  | int (n : Int)
  | float (v : F64)
  | str (s : String)
  | seq (items : List Content)
  | map (entries : List (String × Content))

/-- What the section uses of the library: its defaults, the durations that
`humantime` reads from text, and the engine's own (de)serialization. -/
structure MixerSerde (L : LibTypes) where
  defaultUniform : UniformConfig
  defaultCapacity : UInt64
  parseDuration : String → Option Duration
  readMixerType : Content → Option (MixerType L)
  writeMixerType : MixerType L → Content
  read_write : ∀ m, readMixerType (writeMixerType m) = some m
  write_ne_null : ∀ m, writeMixerType m ≠ .null

variable {L : LibTypes} (serde : MixerSerde L)

/-! ## Fields -/

/-- `usize`. -/
def readUsize : Content → Option UInt64
  | .int n => if 0 ≤ n ∧ n < 2 ^ 64 then some (.ofNat n.toNat) else none
  | _ => none

/-- `humantime_serde`. -/
def readDuration : Content → Option Duration
  | .str s => serde.parseDuration s
  | _ => none

/-- `Option<MixerType>`. -/
def readOptionMixerType : Content → Option (Option (MixerType L))
  | .null => some none
  | v => (serde.readMixerType v).map some

/-- A field with `#[serde(default)]`. -/
def orDefault {α : Type} (read : Content → Option α) (default : α) : Option Content → Option α
  | none => some default
  | some v => read v

/-- `#[serde(deny_unknown_fields)]`; no field is accepted twice either. -/
def knownFields (names : List String) (entries : List (String × Content)) : Bool :=
  entries.all (fun e => names.contains e.1) && decide (entries.map Prod.fst).Nodup

/-! ## The two shapes -/

/-- mirrors hoprd/src/config.rs:202-210 -/
structure LegacyMixerConfig where
  minDelay : Duration
  delayRange : Duration
  capacity : UInt64

/-- mirrors hoprd/src/config.rs:212-221 -/
def LegacyMixerConfig.default : LegacyMixerConfig where
  minDelay := serde.defaultUniform.minDelay
  delayRange := serde.defaultUniform.delayRange
  capacity := serde.defaultCapacity

def legacyFields : List String := ["min_delay", "delay_range", "capacity"]

/-- A sequence is read field by field too. -/
def LegacyMixerConfig.deserialize : Content → Option LegacyMixerConfig
  | .map entries =>
    if knownFields legacyFields entries then do
      let d := LegacyMixerConfig.default serde
      let minDelay ← orDefault (readDuration serde) d.minDelay (get? "min_delay" entries)
      let delayRange ← orDefault (readDuration serde) d.delayRange (get? "delay_range" entries)
      let capacity ← orDefault readUsize d.capacity (get? "capacity" entries)
      return ⟨minDelay, delayRange, capacity⟩
    else none
  | .seq items =>
    if items.length ≤ 3 then do
      let d := LegacyMixerConfig.default serde
      let minDelay ← orDefault (readDuration serde) d.minDelay items[0]?
      let delayRange ← orDefault (readDuration serde) d.delayRange items[1]?
      let capacity ← orDefault readUsize d.capacity items[2]?
      return ⟨minDelay, delayRange, capacity⟩
    else none
  | _ => none

/-- mirrors hoprd/src/config.rs:223-231 -/
structure CurrentMixerConfig (L : LibTypes) where
  capacity : UInt64
  mixerType : Option (MixerType L)

def currentFields : List String := ["capacity", "mixer_type"]

/-- Only `mixer_type` may be missing, and in a sequence neither may. -/
def CurrentMixerConfig.deserialize : Content → Option (CurrentMixerConfig L)
  | .map entries =>
    if knownFields currentFields entries then do
      let capacity ← (get? "capacity" entries).bind readUsize
      let mixerType ← orDefault (readOptionMixerType serde) none (get? "mixer_type" entries)
      return ⟨capacity, mixerType⟩
    else none
  | .seq [capacity, mixerType] => do
    return ⟨← readUsize capacity, ← readOptionMixerType serde mixerType⟩
  | _ => none

def CurrentMixerConfig.toMixerConfig (cfg : CurrentMixerConfig L) : MixerConfig L where
  capacity := cfg.capacity
  mixerType := cfg.mixerType.getD (.uniform serde.defaultUniform)

def LegacyMixerConfig.toMixerConfig (legacy : LegacyMixerConfig) : MixerConfig L where
  capacity := legacy.capacity
  mixerType := .uniform ⟨legacy.minDelay, legacy.delayRange⟩

/-- mirrors hoprd/src/config.rs:233-263 -/
def deserializeMixerConfig (doc : Content) : Except String (MixerConfig L) :=
  match CurrentMixerConfig.deserialize serde doc with
  | some cfg => .ok (cfg.toMixerConfig serde)
  | none =>
    match LegacyMixerConfig.deserialize serde doc with
    | some legacy => .ok legacy.toMixerConfig
    | none => .error "data did not match any variant of untagged enum MixerConfigCompat"

/-- `MixerConfig`'s own serialization. -/
def serializeMixerConfig (cfg : MixerConfig L) : Content :=
  .map [("capacity", .int cfg.capacity.toNat), ("mixer_type", serde.writeMixerType cfg.mixerType)]

/-! ## What a field is read as -/

/-- The field has the value written for it, or its default when none is. -/
structure Keeps {α : Type} (read : Content → Option α) (default : α) (key : String)
    (entries : List (String × Content)) (x : α) : Prop where
  written : ∀ v, (key, v) ∈ entries → read v = some x
  missing : (∀ v, (key, v) ∉ entries) → x = default

theorem get?_eq_none_iff {key : String} {entries : List (String × Content)} :
    get? key entries = none ↔ ∀ v, (key, v) ∉ entries := by
  rw [get?_eq_none]
  exact ⟨fun h v hm => h _ hm rfl, fun h e he hk => h e.2 (hk ▸ he)⟩

theorem keeps_iff {α : Type} {read : Content → Option α} {default x : α} {key : String}
    {entries : List (String × Content)} (hd : Distinct entries) :
    orDefault read default (get? key entries) = some x ↔ Keeps read default key entries x := by
  constructor
  · intro h
    refine ⟨fun v hv => ?_, fun hn => ?_⟩
    · rw [(get?_eq_some hd).2 hv] at h
      exact h
    · rw [get?_eq_none_iff.2 hn] at h
      exact (Option.some.inj h).symm
  · intro h
    cases hg : get? key entries with
    | none => exact congrArg some (h.missing (get?_eq_none_iff.1 hg)).symm
    | some v => exact h.written v (mem_of_get? hg)

theorem knownFields_iff {names : List String} {entries : List (String × Content)} :
    knownFields names entries = true ↔ (∀ e ∈ entries, e.1 ∈ names) ∧ Distinct entries := by
  simp [knownFields, Distinct]

theorem readUsize_int (n : UInt64) : readUsize (.int n.toNat) = some n := by
  have h : (0 : Int) ≤ n.toNat ∧ (n.toNat : Int) < 2 ^ 64 := by
    have := n.toNat_lt
    omega
  simp only [readUsize, if_pos h, Int.toNat_natCast, UInt64.ofNat_toNat]

/-! ## The sections of each shape -/

theorem currentMixerConfig_map {entries : List (String × Content)} {cfg : CurrentMixerConfig L} :
    CurrentMixerConfig.deserialize serde (.map entries) = some cfg ↔
      ((∀ e ∈ entries, e.1 ∈ currentFields) ∧ Distinct entries) ∧
      (∃ v, ("capacity", v) ∈ entries ∧ readUsize v = some cfg.capacity) ∧
      Keeps (readOptionMixerType serde) none "mixer_type" entries cfg.mixerType := by
  unfold CurrentMixerConfig.deserialize
  dsimp only
  by_cases hk : knownFields currentFields entries = true
  · rw [if_pos hk]
    rw [knownFields_iff] at hk
    simp only [Option.bind_eq_bind, Option.bind_eq_some_iff, Option.pure_def, Option.some.injEq]
    constructor
    · rintro ⟨capacity, ⟨v, hv, hc⟩, mixerType, hm, rfl⟩
      exact ⟨hk, ⟨v, mem_of_get? hv, hc⟩, (keeps_iff hk.2).1 hm⟩
    · rintro ⟨-, ⟨v, hv, hc⟩, hm⟩
      exact ⟨cfg.capacity, ⟨v, (get?_eq_some hk.2).2 hv, hc⟩, cfg.mixerType,
        (keeps_iff hk.2).2 hm, rfl⟩
  · rw [if_neg hk]
    exact ⟨fun h => (Option.some_ne_none _ h.symm).elim, fun h => absurd (knownFields_iff.2 h.1) hk⟩

/-- A flat section: every field has what is written for it or the uniform default. -/
structure FlatReading (entries : List (String × Content)) (legacy : LegacyMixerConfig) :
    Prop where
  minDelay : Keeps (readDuration serde) serde.defaultUniform.minDelay "min_delay" entries
    legacy.minDelay
  delayRange : Keeps (readDuration serde) serde.defaultUniform.delayRange "delay_range" entries
    legacy.delayRange
  capacity : Keeps readUsize serde.defaultCapacity "capacity" entries legacy.capacity

theorem legacyMixerConfig_map {entries : List (String × Content)} {legacy : LegacyMixerConfig} :
    LegacyMixerConfig.deserialize serde (.map entries) = some legacy ↔
      ((∀ e ∈ entries, e.1 ∈ legacyFields) ∧ Distinct entries) ∧
      FlatReading serde entries legacy := by
  unfold LegacyMixerConfig.deserialize
  dsimp only
  by_cases hk : knownFields legacyFields entries = true
  · rw [if_pos hk]
    rw [knownFields_iff] at hk
    simp only [Option.bind_eq_bind, Option.bind_eq_some_iff, Option.pure_def, Option.some.injEq]
    constructor
    · rintro ⟨minDelay, hmin, delayRange, hrange, capacity, hc, rfl⟩
      exact ⟨hk, (keeps_iff hk.2).1 hmin, (keeps_iff hk.2).1 hrange, (keeps_iff hk.2).1 hc⟩
    · rintro ⟨-, hmin, hrange, hc⟩
      exact ⟨_, (keeps_iff hk.2).2 hmin, _, (keeps_iff hk.2).2 hrange, _,
        (keeps_iff hk.2).2 hc, rfl⟩
  · rw [if_neg hk]
    exact ⟨fun h => (Option.some_ne_none _ h.symm).elim, fun h => absurd (knownFields_iff.2 h.1) hk⟩

theorem not_mem_of_known {names : List String} {entries : List (String × Content)} {key : String}
    (h : ∀ e ∈ entries, e.1 ∈ names) (hk : key ∉ names) (v : Content) : (key, v) ∉ entries :=
  fun hm => hk (h _ hm)

/-- A section of both shapes has the capacity and nothing else. -/
theorem shapes_agree_map {entries : List (String × Content)} {cfg : CurrentMixerConfig L}
    {legacy : LegacyMixerConfig}
    (hc : CurrentMixerConfig.deserialize serde (.map entries) = some cfg)
    (hl : LegacyMixerConfig.deserialize serde (.map entries) = some legacy) :
    cfg.toMixerConfig serde = legacy.toMixerConfig := by
  obtain ⟨⟨hcurrent, -⟩, ⟨v, hv, hcap⟩, htype⟩ := (currentMixerConfig_map serde).1 hc
  obtain ⟨⟨hlegacy, -⟩, hflat⟩ := (legacyMixerConfig_map serde).1 hl
  have htype := htype.missing (not_mem_of_known hlegacy (by decide))
  have hmin := hflat.minDelay.missing (not_mem_of_known hcurrent (by decide))
  have hrange := hflat.delayRange.missing (not_mem_of_known hcurrent (by decide))
  have hcap' := hflat.capacity.written v hv
  rw [hcap] at hcap'
  have hcap' := Option.some.inj hcap'
  simp only [CurrentMixerConfig.toMixerConfig, LegacyMixerConfig.toMixerConfig, htype, hmin,
    hrange, hcap', Option.getD_none]

theorem readDuration_of_readUsize {v : Content} {n : UInt64} (h : readUsize v = some n) :
    readDuration serde v = none := by
  cases v with
  | int _ => rfl
  | _ => cases h

/-- Both shapes of a section mean the same. In a sequence the first item would have
to be a number and a duration. -/
theorem shapes_agree {doc : Content} {cfg : CurrentMixerConfig L} {legacy : LegacyMixerConfig}
    (hc : CurrentMixerConfig.deserialize serde doc = some cfg)
    (hl : LegacyMixerConfig.deserialize serde doc = some legacy) :
    cfg.toMixerConfig serde = legacy.toMixerConfig := by
  cases doc with
  | map entries => exact shapes_agree_map serde hc hl
  | seq items =>
    match items with
    | [capacity, mixerType] =>
      simp only [CurrentMixerConfig.deserialize, Option.bind_eq_bind, Option.bind_eq_some_iff] at hc
      obtain ⟨n, hn, -⟩ := hc
      simp [LegacyMixerConfig.deserialize, orDefault, readDuration_of_readUsize serde hn] at hl
    | [] | [_] | _ :: _ :: _ :: _ => cases hc
  | _ => cases hc

/-! ## What is loaded -/

/-- Since the shapes agree, the order in which they are tried does not matter. -/
theorem deserialize_ok_iff {doc : Content} {cfg : MixerConfig L} :
    deserializeMixerConfig serde doc = .ok cfg ↔
      (∃ c, CurrentMixerConfig.deserialize serde doc = some c ∧ cfg = c.toMixerConfig serde) ∨
      ∃ l, LegacyMixerConfig.deserialize serde doc = some l ∧ cfg = l.toMixerConfig := by
  unfold deserializeMixerConfig
  cases hc : CurrentMixerConfig.deserialize serde doc with
  | some c =>
    constructor
    · intro h
      exact .inl ⟨c, rfl, (Except.ok.inj h).symm⟩
    · rintro (⟨c', hc', rfl⟩ | ⟨l, hl, rfl⟩)
      · cases hc'
        rfl
      · exact congrArg Except.ok (shapes_agree serde hc hl)
  | none =>
    cases hl : LegacyMixerConfig.deserialize serde doc with
    | some l =>
      constructor
      · intro h
        exact .inr ⟨l, rfl, (Except.ok.inj h).symm⟩
      · rintro (⟨_, hc', _⟩ | ⟨l', hl', rfl⟩)
        · cases hc'
        · cases hl'
          rfl
    | none => exact ⟨nofun, nofun⟩

theorem eq_of_mem {entries : List (String × Content)} {key : String} {v w : Content}
    (hd : Distinct entries) (hv : (key, v) ∈ entries) (hw : (key, w) ∈ entries) : v = w :=
  Option.some.inj (((get?_eq_some hd).2 hv).symm.trans ((get?_eq_some hd).2 hw))

/-- The flat keys that are written are kept. -/
theorem flat_keys_kept {entries : List (String × Content)} {cfg : MixerConfig L}
    (h : deserializeMixerConfig serde (.map entries) = .ok cfg) :
    (∀ v, ("capacity", v) ∈ entries → readUsize v = some cfg.capacity) ∧
    (∀ v, ("min_delay", v) ∈ entries →
      ∃ u, cfg.mixerType = .uniform u ∧ readDuration serde v = some u.minDelay) ∧
    ∀ v, ("delay_range", v) ∈ entries →
      ∃ u, cfg.mixerType = .uniform u ∧ readDuration serde v = some u.delayRange := by
  obtain ⟨c, hc, rfl⟩ | ⟨l, hl, rfl⟩ := (deserialize_ok_iff serde).1 h
  · obtain ⟨⟨hkeys, hd⟩, ⟨w, hw, hn⟩, -⟩ := (currentMixerConfig_map serde).1 hc
    refine ⟨fun v hv => eq_of_mem hd hw hv ▸ hn, fun v hv => ?_, fun v hv => ?_⟩
    · exact absurd hv (not_mem_of_known hkeys (by decide) v)
    · exact absurd hv (not_mem_of_known hkeys (by decide) v)
  · obtain ⟨-, hflat⟩ := (legacyMixerConfig_map serde).1 hl
    exact ⟨hflat.capacity.written, fun v hv => ⟨_, rfl, hflat.minDelay.written v hv⟩,
      fun v hv => ⟨_, rfl, hflat.delayRange.written v hv⟩⟩

/-- A flat section loads exactly as it reads, also when it has the current shape. -/
theorem flat_section_iff {entries : List (String × Content)}
    (hkeys : ∀ e ∈ entries, e.1 ∈ legacyFields) (hd : Distinct entries) (cfg : MixerConfig L) :
    deserializeMixerConfig serde (.map entries) = .ok cfg ↔
      ∃ legacy, FlatReading serde entries legacy ∧ cfg = legacy.toMixerConfig := by
  rw [deserialize_ok_iff]
  constructor
  · rintro (⟨c, hc, rfl⟩ | ⟨l, hl, rfl⟩)
    · obtain ⟨⟨hcurrent, -⟩, ⟨w, hw, hn⟩, -⟩ := (currentMixerConfig_map serde).1 hc
      have hmin : ∀ v, ("min_delay", v) ∉ entries := not_mem_of_known hcurrent (by decide)
      have hrange : ∀ v, ("delay_range", v) ∉ entries := not_mem_of_known hcurrent (by decide)
      have hflat : FlatReading serde entries
          { LegacyMixerConfig.default serde with capacity := c.capacity } :=
        { minDelay := ⟨fun v hv => absurd hv (hmin v), fun _ => rfl⟩
          delayRange := ⟨fun v hv => absurd hv (hrange v), fun _ => rfl⟩
          capacity := ⟨fun v hv => eq_of_mem hd hw hv ▸ hn, fun hn => absurd hw (hn w)⟩ }
      exact ⟨_, hflat, shapes_agree serde hc ((legacyMixerConfig_map serde).2 ⟨⟨hkeys, hd⟩, hflat⟩)⟩
    · exact ⟨l, ((legacyMixerConfig_map serde).1 hl).2, rfl⟩
  · rintro ⟨legacy, hflat, rfl⟩
    exact .inr ⟨legacy, (legacyMixerConfig_map serde).2 ⟨⟨hkeys, hd⟩, hflat⟩, rfl⟩

/-- A current section without an engine has the uniform one. -/
theorem current_section_without_type {entries : List (String × Content)} {n : UInt64}
    {v : Content} (hkeys : ∀ e ∈ entries, e.1 ∈ currentFields) (hd : Distinct entries)
    (hv : ("capacity", v) ∈ entries) (hn : readUsize v = some n)
    (hnull : ∀ w, ("mixer_type", w) ∈ entries → w = .null) :
    deserializeMixerConfig serde (.map entries) = .ok ⟨n, .uniform serde.defaultUniform⟩ := by
  have hkeeps : Keeps (readOptionMixerType serde) none "mixer_type" entries none :=
    ⟨fun w hw => hnull w hw ▸ rfl, fun _ => rfl⟩
  have hc : CurrentMixerConfig.deserialize serde (.map entries) = some ⟨n, none⟩ :=
    (currentMixerConfig_map serde).2 ⟨⟨hkeys, hd⟩, ⟨v, hv, hn⟩, hkeeps⟩
  exact (deserialize_ok_iff serde).2 (.inl ⟨_, hc, rfl⟩)

/-- What is loaded has the keys of one shape only. -/
theorem keys_of_ok {entries : List (String × Content)} {cfg : MixerConfig L}
    (h : deserializeMixerConfig serde (.map entries) = .ok cfg) :
    (∀ e ∈ entries, e.1 ∈ currentFields) ∨ ∀ e ∈ entries, e.1 ∈ legacyFields := by
  obtain ⟨c, hc, -⟩ | ⟨l, hl, -⟩ := (deserialize_ok_iff serde).1 h
  · exact .inl ((currentMixerConfig_map serde).1 hc).1.1
  · exact .inr ((legacyMixerConfig_map serde).1 hl).1.1

theorem rejected_of_keys {entries : List (String × Content)}
    (hcurrent : ∃ e ∈ entries, e.1 ∉ currentFields) (hlegacy : ∃ e ∈ entries, e.1 ∉ legacyFields) :
    ∃ e, deserializeMixerConfig serde (.map entries) = .error e := by
  cases h : deserializeMixerConfig serde (.map entries) with
  | error e => exact ⟨e, rfl⟩
  | ok cfg =>
    obtain ⟨e, he, hc⟩ := hcurrent
    obtain ⟨e', he', hl⟩ := hlegacy
    exact (keys_of_ok serde h).elim (fun hk => absurd (hk e he) hc) fun hk => absurd (hk e' he') hl

theorem readOptionMixerType_write (m : MixerType L) :
    readOptionMixerType serde (serde.writeMixerType m) = some (some m) := by
  unfold readOptionMixerType
  split
  · rename_i h
    exact absurd h (serde.write_ne_null m)
  · rw [serde.read_write]
    rfl

theorem deserialize_serialize (cfg : MixerConfig L) :
    deserializeMixerConfig serde (serializeMixerConfig serde cfg) = .ok cfg := by
  have hd : Distinct [("capacity", Content.int cfg.capacity.toNat),
      ("mixer_type", serde.writeMixerType cfg.mixerType)] := by
    simp [Distinct]
  have hkeeps : Keeps (readOptionMixerType serde) none "mixer_type"
      [("capacity", Content.int cfg.capacity.toNat),
        ("mixer_type", serde.writeMixerType cfg.mixerType)] (some cfg.mixerType) := by
    rw [← keeps_iff hd]
    exact readOptionMixerType_write serde cfg.mixerType
  have hc : CurrentMixerConfig.deserialize serde (serializeMixerConfig serde cfg) =
      some ⟨cfg.capacity, some cfg.mixerType⟩ :=
    (currentMixerConfig_map serde).2 ⟨⟨by simp [currentFields], hd⟩,
      ⟨_, List.mem_cons_self, readUsize_int cfg.capacity⟩, hkeeps⟩
  exact (deserialize_ok_iff serde).2 (.inl ⟨_, hc, rfl⟩)

/-- Old and new mixer sections load compatibly. -/
structure MixerCompatible : Prop where
  kept : ∀ entries cfg, deserializeMixerConfig serde (.map entries) = .ok cfg →
    (∀ v, ("capacity", v) ∈ entries → readUsize v = some cfg.capacity) ∧
    (∀ v, ("min_delay", v) ∈ entries →
      ∃ u, cfg.mixerType = .uniform u ∧ readDuration serde v = some u.minDelay) ∧
    ∀ v, ("delay_range", v) ∈ entries →
      ∃ u, cfg.mixerType = .uniform u ∧ readDuration serde v = some u.delayRange
  flat : ∀ entries, (∀ e ∈ entries, e.1 ∈ legacyFields) → Distinct entries → ∀ cfg,
    deserializeMixerConfig serde (.map entries) = .ok cfg ↔
      ∃ legacy, FlatReading serde entries legacy ∧ cfg = legacy.toMixerConfig
  withoutType : ∀ entries n v, (∀ e ∈ entries, e.1 ∈ currentFields) → Distinct entries →
    ("capacity", v) ∈ entries → readUsize v = some n →
    (∀ w, ("mixer_type", w) ∈ entries → w = .null) →
    deserializeMixerConfig serde (.map entries) = .ok ⟨n, .uniform serde.defaultUniform⟩
  agree : ∀ doc cfg legacy, CurrentMixerConfig.deserialize serde doc = some cfg →
    LegacyMixerConfig.deserialize serde doc = some legacy →
    cfg.toMixerConfig serde = legacy.toMixerConfig
  unknownKey : ∀ entries, (∃ e ∈ entries, e.1 ∉ currentFields ∧ e.1 ∉ legacyFields) →
    ∃ e, deserializeMixerConfig serde (.map entries) = .error e
  bothShapes : ∀ entries v w, ("mixer_type", v) ∈ entries →
    ("min_delay", w) ∈ entries ∨ ("delay_range", w) ∈ entries →
    ∃ e, deserializeMixerConfig serde (.map entries) = .error e
  roundTrip : ∀ cfg, deserializeMixerConfig serde (serializeMixerConfig serde cfg) = .ok cfg

theorem mixer_documents_compatible : MixerCompatible serde where
  kept _ _ := flat_keys_kept serde
  flat _ := flat_section_iff serde
  withoutType _ _ _ := current_section_without_type serde
  agree _ _ _ := shapes_agree serde
  unknownKey _ h :=
    let ⟨e, he, hc, hl⟩ := h
    rejected_of_keys serde ⟨e, he, hc⟩ ⟨e, he, hl⟩
  bothShapes _ _ _ hv hw := by
    have hlegacy : "mixer_type" ∉ legacyFields := by decide
    refine rejected_of_keys serde ?_ ⟨_, hv, hlegacy⟩
    rcases hw with hw | hw
    · exact ⟨_, hw, (by decide : "min_delay" ∉ currentFields)⟩
    · exact ⟨_, hw, (by decide : "delay_range" ∉ currentFields)⟩
  roundTrip := deserialize_serialize serde

/-! ## A flat section -/

/-- Durations in whole milliseconds. -/
def plainSerde : MixerSerde plainTypes where
  defaultUniform := ⟨0, Duration.fromMillis 20⟩
  defaultCapacity := 20000
  parseDuration s := (s.toList.dropSuffix? ['m', 's']).bind fun v =>
    (Text.parseU64 v).map Duration.fromMillis
  readMixerType
    | .map [(_, .seq [.int minDelay, .int delayRange])] =>
      some (.uniform ⟨minDelay.toNat, delayRange.toNat⟩)
    | .str _ => some (.poisson ())
    | _ => none
  writeMixerType
    | .uniform u => .map [("Uniform", .seq [.int (u.minDelay : Nat), .int (u.delayRange : Nat)])]
    | .poisson _ => .str "Poisson"
  read_write m := by
    cases m with
    | uniform u => rfl
    | poisson cfg => rfl
  write_ne_null m := by
    cases m with
    | uniform u => exact nofun
    | poisson cfg => exact nofun

theorem plain_flat_section :
    deserializeMixerConfig plainSerde
        (.map [("min_delay", .str "5ms"), ("capacity", .int 5000)]) =
      .ok ⟨5000, .uniform ⟨Duration.fromMillis 5, Duration.fromMillis 20⟩⟩ ∧
    MixerCompatible plainSerde :=
  ⟨rfl, mixer_documents_compatible plainSerde⟩

end Hoprd.Config
