import HisiRfCore.CheckedData
import HisiRfCore.FlagWords
import HisiRfCore.SliceCopy

/-!
# Requests of the Bluetooth and SLE planes

Advertising and scan requests of BLE, announce and seek requests of SLE. Intervals are
numbers in a range, timings are pairs of intervals in order, channels are a set of flags and
payloads are bytes in a zero-padded buffer, each behind a checking constructor. The plain
numbers and bytes of a request are read back as they were given.
-/

namespace HisiRfCore.DeviceRequests

open Function CheckedData FlagWords SliceCopy

section Payloads

variable {capacity : ℕ} {value : List UInt8}

/-- Owned payload in a zero-padded buffer. -/
structure Payload (capacity : ℕ) where
  /-- Fixed buffer; bytes past the length are padding. -/
  bytes : Vector UInt8 capacity
  /-- Number of meaningful bytes. -/
  len : UInt8
  /-- The length is within the buffer. -/
  bounded : len.toNat ≤ capacity
  /-- The padding is zero. -/
  padding : bytes.toList.drop len.toNat = List.replicate (capacity - len.toNat) 0

/-- Exact payload bytes. -/
def Payload.asBytes (payload : Payload capacity) : List UInt8 :=
  payload.bytes.toList.take payload.len.toNat

/-- The length survives its cast to a byte. -/
theorem toNat_length (hbyte : capacity < 256) (h : value.length ≤ capacity) :
    (UInt8.ofNat value.length).toNat = value.length := by
  rw [UInt8.toNat_ofNat']
  omega

/-- The padded buffer is the value and zeros. -/
theorem toList_padded (h : value.length ≤ capacity) :
    (padded (0 : UInt8) value h).toList = value ++ List.replicate (capacity - value.length) 0 := by
  have hcopied : (padded (0 : UInt8) value h).toList =
      copied value.length value (List.replicate capacity 0) := by
    simp [padded]
  rw [hcopied, copied, List.take_length, List.drop_replicate]

/-- The bytes past the length are the padding. -/
theorem drop_padded (hbyte : capacity < 256) (h : value.length ≤ capacity) :
    (padded (0 : UInt8) value h).toList.drop (UInt8.ofNat value.length).toNat =
      List.replicate (capacity - (UInt8.ofNat value.length).toNat) 0 := by
  rw [toNat_length hbyte h, toList_padded, List.drop_left]

/-- Copy a value that fits into fixed-capacity storage. -/
def Payload.tryFromSlice (hbyte : capacity < 256) (value : List UInt8) :
    Option (Payload capacity) :=
  if h : capacity < value.length then none
  else some ⟨padded 0 value (Nat.le_of_not_lt h), UInt8.ofNat value.length,
    (toNat_length hbyte (Nat.le_of_not_lt h)).le.trans (Nat.le_of_not_lt h),
    drop_padded hbyte (Nat.le_of_not_lt h)⟩

/-- Payloads with the same length and bytes are equal, whatever they were copied from. -/
theorem payload_ext {p q : Payload capacity} (h : p.asBytes = q.asBytes) : p = q := by
  have hlen : p.len.toNat = q.len.toNat := by
    have hp : p.asBytes.length = p.len.toNat := by
      simp [Payload.asBytes, p.bounded]
    have hq : q.asBytes.length = q.len.toNat := by
      simp [Payload.asBytes, q.bounded]
    rw [← hp, ← hq, h]
  have hbytes : p.bytes.toList = q.bytes.toList := calc
    p.bytes.toList = p.asBytes ++ List.replicate (capacity - p.len.toNat) 0 := by
      rw [← p.padding, Payload.asBytes, List.take_append_drop]
    _ = q.asBytes ++ List.replicate (capacity - q.len.toNat) 0 := by rw [h, hlen]
    _ = q.bytes.toList := by rw [← q.padding, Payload.asBytes, List.take_append_drop]
  cases p
  cases q
  cases UInt8.toNat_inj.mp hlen
  cases Vector.toList_inj.mp hbytes
  rfl

/-- A payload is read back byte by byte. -/
theorem payload_isPartialInv (hbyte : capacity < 256) :
    IsPartialInv (Payload.asBytes : Payload capacity → List UInt8) (Payload.tryFromSlice hbyte) := by
  have hread : ∀ value (p : Payload capacity), Payload.tryFromSlice hbyte value = some p →
      p.asBytes = value := by
    intro value p h
    unfold Payload.tryFromSlice at h
    split at h
    · cases h
    · next hle =>
      cases h
      rw [Payload.asBytes, toNat_length hbyte (Nat.le_of_not_lt hle), toList_padded,
        List.take_left]
  intro p value
  refine ⟨hread value p, ?_⟩
  rintro rfl
  have hlength : p.asBytes.length ≤ capacity := by
    simp [Payload.asBytes]
  have hsome : (Payload.tryFromSlice hbyte p.asBytes).isSome = true := by
    rw [Payload.tryFromSlice, dif_neg (Nat.not_lt.mpr hlength)]
    rfl
  obtain ⟨q, hq⟩ := Option.isSome_iff_exists.mp hsome
  rw [hq, payload_ext (hread _ q hq)]

/-- A payload is accepted when it fits. -/
theorem tryFromSlice_isSome (hbyte : capacity < 256) :
    (Payload.tryFromSlice hbyte value : Option (Payload capacity)).isSome = true ↔
      value.length ≤ capacity := by
  unfold Payload.tryFromSlice
  split
  · next h => simp [Nat.not_le.mpr h]
  · next h => simp [Nat.le_of_not_lt h]

end Payloads

section Timings

variable {τ : Type}

/-- Two intervals, the check of each and the check of their order. -/
abbrev Timing (rejects : τ → Prop) (exceeds : τ → τ → Prop) :=
  Checked fun pair : Checked rejects × Checked rejects => exceeds pair.1.value pair.2.value

variable {rejects : τ → Prop} {exceeds : τ → τ → Prop}

/-- Validate both intervals and then their order. -/
def buildTiming (tryFromUnits : τ → Option (Checked rejects))
    (tryNew : Checked rejects → Checked rejects → Option (Timing rejects exceeds))
    (units : τ × τ) : Option (Timing rejects exceeds) :=
  (buildBoth tryFromUnits tryFromUnits units).bind fun pair => tryNew pair.1 pair.2

/-- The units of a timing. -/
def Timing.units (x : Timing rejects exceeds) : τ × τ :=
  Prod.map Checked.value Checked.value x.value

variable [DecidablePred rejects] [DecidableRel exceeds]

/-- A timing is read back unit by unit. -/
theorem timing_isPartialInv :
    IsPartialInv (Timing.units : Timing rejects exceeds → τ × τ)
      (buildTiming (Checked.tryNew rejects) fun first second => Checked.tryNew _ (first, second)) :=
  (Checked.isPartialInv _).comp
    (isPartialInv_both (Checked.isPartialInv rejects) (Checked.isPartialInv rejects))

/-- A timing is accepted when its intervals are, in their order. -/
theorem buildTiming_isSome {first second : τ} :
    (buildTiming (Checked.tryNew rejects)
      (fun first second => (Checked.tryNew _ (first, second) : Option (Timing rejects exceeds)))
      (first, second)).isSome = true ↔
      ¬ rejects first ∧ ¬ rejects second ∧ ¬ exceeds first second := by
  rw [isSome_iff timing_isPartialInv]
  constructor
  · rintro ⟨x, hx⟩
    cases hx
    exact ⟨x.value.1.accepted, x.value.2.accepted, x.accepted⟩
  · rintro ⟨hfirst, hsecond, horder⟩
    exact ⟨⟨(⟨first, hfirst⟩, ⟨second, hsecond⟩), horder⟩, rfl⟩

omit [DecidablePred rejects] [DecidableRel exceeds] in
/-- Two values in a range that are in order. -/
theorem ordered_iff [LT τ] [LE τ] [Std.IsLinearOrder τ] [Std.LawfulOrderLT τ]
    {low high first second : τ} :
    (¬ (first < low ∨ high < first) ∧ ¬ (second < low ∨ high < second) ∧ ¬ second < first) ↔
      low ≤ first ∧ first ≤ second ∧ second ≤ high := by
  simp only [not_or, Std.not_lt]
  constructor
  · rintro ⟨⟨hlow, -⟩, ⟨-, hhigh⟩, horder⟩
    exact ⟨hlow, horder, hhigh⟩
  · rintro ⟨hlow, horder, hhigh⟩
    exact ⟨⟨hlow, Std.le_trans horder hhigh⟩, ⟨Std.le_trans hlow horder, hhigh⟩, horder⟩

end Timings

section Channels

/-- Non-empty subset of three channels. -/
abbrev Channels := Checked fun bits : UInt8 => bits = 0 ∨ bits &&& ~~~0x07 ≠ 0

/-- Validate a three-bit channel map. -/
def Channels.tryFromBits (bits : UInt8) : Option Channels := Checked.tryNew _ bits

/-- A channel map that names some of the three channels and nothing else. -/
def NamesChannels (bits : UInt8) : Prop :=
  (members bits).Nonempty ∧ ∀ i ∈ members bits, i.val < 3

theorem channels_isPartialInv :
    IsPartialInv (Checked.value : Channels → UInt8) Channels.tryFromBits :=
  Checked.isPartialInv _

theorem tryFromBits_isSome {bits : UInt8} :
    (Channels.tryFromBits bits).isSome = true ↔ NamesChannels bits := by
  have hmask : ∀ i : Fin 8, i ∈ members (~~~0x07 : UInt8) ↔ ¬ i.val < 3 := by decide
  have hclear : bits &&& ~~~0x07 = 0 ↔ ∀ i ∈ members bits, i.val < 3 := by
    rw [← members_eq_empty, members_and, Finset.eq_empty_iff_forall_notMem]
    simp only [Finset.mem_inter, hmask, not_and, not_not]
  rw [Channels.tryFromBits, Checked.tryNew_isSome, not_or, not_not, hclear, NamesChannels,
    Finset.nonempty_iff_ne_empty, ne_eq, members_eq_empty]

end Channels

section Bluetooth

/-- The check of a legacy advertising interval. -/
abbrev AdvertisingIntervalRejected (units : UInt16) : Prop := units < 0x20 ∨ 0x4000 < units

/-- Legacy advertising interval in 0.625 ms controller units. -/
abbrev AdvertisingInterval := Checked AdvertisingIntervalRejected

/-- Validate the Bluetooth legacy-advertising interval range. -/
def AdvertisingInterval.tryFromUnits (units : UInt16) : Option AdvertisingInterval :=
  Checked.tryNew _ units

/-- Ordered advertising interval range. -/
abbrev AdvertisingTiming :=
  Timing AdvertisingIntervalRejected fun minimum maximum => maximum < minimum

/-- Validate that the minimum does not exceed the maximum. -/
def AdvertisingTiming.tryNew (minimum maximum : AdvertisingInterval) : Option AdvertisingTiming :=
  Checked.tryNew _ (minimum, maximum)

/-- Non-empty subset of the three primary advertising channels. -/
abbrev AdvertisingChannels := Channels

/-- Owned, bounded legacy advertising payload. -/
abbrev AdvertisingPayload := Payload 31

/-- Typed legacy advertising request. -/
structure AdvertisingConfig where
  /-- Selected timing range. -/
  timing : AdvertisingTiming
  /-- Selected primary channels. -/
  channels : AdvertisingChannels
  /-- The bounded payload. -/
  payload : AdvertisingPayload

/-- The check of a scan interval or window. -/
abbrev ScanIntervalRejected (units : UInt16) : Prop := units < 0x0004 ∨ 0x4000 < units

/-- Scan interval or window in 0.625 ms controller units. -/
abbrev ScanInterval := Checked ScanIntervalRejected

/-- Validate the controller scan timing range. -/
def ScanInterval.tryFromUnits (units : UInt16) : Option ScanInterval := Checked.tryNew _ units

/-- Scan interval and window, the window within the interval. -/
abbrev ScanTiming := Timing ScanIntervalRejected fun interval window => interval < window

/-- Validate one scan timing pair. -/
def ScanTiming.tryNew (interval window : ScanInterval) : Option ScanTiming :=
  Checked.tryNew _ (interval, window)

/-- Host scan behavior. -/
inductive ScanMode
  | passive | active
  deriving DecidableEq

/-- Typed BLE scan request. -/
structure ScanConfig where
  /-- Selected scan timing. -/
  timing : ScanTiming
  /-- Active or passive behavior. -/
  mode : ScanMode
  /-- Whether duplicate reports should be filtered. -/
  filterDuplicates : Bool

/-- Numbers of a scan request. -/
abbrev ScanDraft := (UInt16 × UInt16) × ScanMode × Bool

/-- Numbers and bytes of an advertising request. -/
abbrev AdvertisingDraft := (UInt16 × UInt16) × UInt8 × List UInt8

/-- Build an advertising request from its numbers and bytes. -/
def AdvertisingConfig.build (draft : AdvertisingDraft) : Option AdvertisingConfig :=
  (buildBoth (buildTiming AdvertisingInterval.tryFromUnits AdvertisingTiming.tryNew)
    (buildBoth Channels.tryFromBits (Payload.tryFromSlice (by decide))) draft).map
    fun parts => ⟨parts.1, parts.2.1, parts.2.2⟩

/-- The numbers and bytes that an advertising request shows. -/
def AdvertisingConfig.describe (config : AdvertisingConfig) : AdvertisingDraft :=
  (config.timing.units, config.channels.value, config.payload.asBytes)

/-- Build a scan request from its numbers. -/
def ScanConfig.build (draft : ScanDraft) : Option ScanConfig :=
  (buildBoth (buildTiming ScanInterval.tryFromUnits ScanTiming.tryNew) some draft).map
    fun parts => ⟨parts.1, parts.2.1, parts.2.2⟩

/-- The numbers that a scan request shows. -/
def ScanConfig.describe (config : ScanConfig) : ScanDraft :=
  (config.timing.units, config.mode, config.filterDuplicates)

/-- The timing of an advertising request is accepted in its range and order. -/
theorem advertisingTiming_isSome {minimum maximum : UInt16} :
    (buildTiming AdvertisingInterval.tryFromUnits AdvertisingTiming.tryNew
      (minimum, maximum)).isSome = true ↔
      0x20 ≤ minimum ∧ minimum ≤ maximum ∧ maximum ≤ 0x4000 :=
  buildTiming_isSome.trans ordered_iff

/-- So is the timing of a scan request, with the window as the smaller one. -/
theorem scanTiming_isSome {interval window : UInt16} :
    (buildTiming ScanInterval.tryFromUnits ScanTiming.tryNew (interval, window)).isSome = true ↔
      4 ≤ window ∧ window ≤ interval ∧ interval ≤ 0x4000 := by
  have hbuild : (buildTiming ScanInterval.tryFromUnits ScanTiming.tryNew
      (interval, window)).isSome = true ↔ ¬ ScanIntervalRejected interval ∧
        ¬ ScanIntervalRejected window ∧ ¬ interval < window := buildTiming_isSome
  rw [hbuild, ← ordered_iff, and_left_comm]

/-- Advertising and scan requests show the numbers and bytes that they were built from. They
are accepted exactly when the intervals are in range and in order, the channel map names
some of the three channels and nothing else, and the payload fits; of a scan request the
mode and the filter are kept as they are. -/
theorem bluetooth_requests :
    (IsPartialInv AdvertisingConfig.describe AdvertisingConfig.build ∧
      ∀ minimum maximum bits payload,
        (AdvertisingConfig.build ((minimum, maximum), bits, payload)).isSome = true ↔
          (0x20 ≤ minimum ∧ minimum ≤ maximum ∧ maximum ≤ 0x4000) ∧ NamesChannels bits ∧
            payload.length ≤ 31) ∧
    IsPartialInv ScanConfig.describe ScanConfig.build ∧
      ∀ interval window kept, (ScanConfig.build ((interval, window), kept)).isSome = true ↔
        4 ≤ window ∧ window ≤ interval ∧ interval ≤ 0x4000 := by
  refine ⟨⟨?_, ?_⟩, ?_, ?_⟩
  · have htiming : IsPartialInv (Timing.units : AdvertisingTiming → UInt16 × UInt16)
        (buildTiming AdvertisingInterval.tryFromUnits AdvertisingTiming.tryNew) :=
      timing_isPartialInv
    have hpayload : IsPartialInv (Payload.asBytes : AdvertisingPayload → List UInt8)
        (Payload.tryFromSlice (by decide)) := payload_isPartialInv (by decide)
    exact isPartialInv_record
      (fun config : AdvertisingConfig => (config.timing, config.channels, config.payload))
      (fun parts => ⟨parts.1, parts.2.1, parts.2.2⟩)
      (isPartialInv_both htiming (isPartialInv_both channels_isPartialInv hpayload))
      (fun _ => rfl) (fun _ => rfl)
  · intro minimum maximum bits payload
    rw [AdvertisingConfig.build, Option.isSome_map, buildBoth_isSome, buildBoth_isSome,
      advertisingTiming_isSome, tryFromBits_isSome, tryFromSlice_isSome]
  · have htiming : IsPartialInv (Timing.units : ScanTiming → UInt16 × UInt16)
        (buildTiming ScanInterval.tryFromUnits ScanTiming.tryNew) := timing_isPartialInv
    exact isPartialInv_record
      (fun config : ScanConfig => (config.timing, config.mode, config.filterDuplicates))
      (fun parts => ⟨parts.1, parts.2.1, parts.2.2⟩) (isPartialInv_both htiming isPartialInv_id)
      (fun _ => rfl) (fun _ => rfl)
  · intro interval window kept
    rw [ScanConfig.build, Option.isSome_map, buildBoth_isSome, scanTiming_isSome,
      Option.isSome_some, eq_self, and_true]

end Bluetooth

section Sle

/-- The check of an announce interval. -/
abbrev AnnounceIntervalRejected (units : UInt32) : Prop := units < 0x20 ∨ 0x00ffffff < units

/-- SLE announce interval in 125 us controller units. -/
abbrev AnnounceInterval := Checked AnnounceIntervalRejected

/-- Validate the WS63 public SLE API range without truncating its 24-bit value. -/
def AnnounceInterval.tryFromUnits (units : UInt32) : Option AnnounceInterval :=
  Checked.tryNew _ units

/-- Ordered announce timing range. -/
abbrev AnnounceTiming := Timing AnnounceIntervalRejected fun minimum maximum => maximum < minimum

/-- Validate that the minimum does not exceed the maximum. -/
def AnnounceTiming.tryNew (minimum maximum : AnnounceInterval) : Option AnnounceTiming :=
  Checked.tryNew _ (minimum, maximum)

/-- Non-empty subset of the three SLE announce channels. -/
abbrev AnnounceChannels := Channels

/-- Owned, bounded announce or seek-response payload. -/
abbrev AnnouncePayload := Payload 64

/-- Typed SLE announce request. -/
structure AnnounceConfig where
  /-- Selected timing range. -/
  timing : AnnounceTiming
  /-- Selected channel map. -/
  channels : AnnounceChannels
  /-- Announce data. -/
  data : AnnouncePayload
  /-- Seek-response data. -/
  seekResponse : AnnouncePayload

/-- The check of a seek interval or window, which has no upper bound. -/
abbrev SeekIntervalRejected (units : UInt16) : Prop := units < 0x14

/-- SLE seek interval or window in 125 us controller units. -/
abbrev SeekInterval := Checked SeekIntervalRejected

/-- Validate the public SLE seek timing range. -/
def SeekInterval.tryFromUnits (units : UInt16) : Option SeekInterval := Checked.tryNew _ units

/-- Seek interval and window, the window within the interval. -/
abbrev SeekTiming := Timing SeekIntervalRejected fun interval window => interval < window

/-- Validate one seek timing pair. -/
def SeekTiming.tryNew (interval window : SeekInterval) : Option SeekTiming :=
  Checked.tryNew _ (interval, window)

/-- Typed SLE seek request. -/
structure SeekConfig where
  /-- Selected seek timing. -/
  timing : SeekTiming
  /-- Whether duplicate reports should be filtered. -/
  filterDuplicates : Bool

/-- Numbers and bytes of an announce request. -/
abbrev AnnounceDraft := (UInt32 × UInt32) × UInt8 × List UInt8 × List UInt8

/-- Build an announce request from its numbers and bytes. -/
def AnnounceConfig.build (draft : AnnounceDraft) : Option AnnounceConfig :=
  (buildBoth (buildTiming AnnounceInterval.tryFromUnits AnnounceTiming.tryNew)
    (buildBoth Channels.tryFromBits (buildBoth (Payload.tryFromSlice (by decide))
      (Payload.tryFromSlice (by decide)))) draft).map
    fun parts => ⟨parts.1, parts.2.1, parts.2.2.1, parts.2.2.2⟩

/-- The numbers and bytes that an announce request shows. -/
def AnnounceConfig.describe (config : AnnounceConfig) : AnnounceDraft :=
  (config.timing.units, config.channels.value, config.data.asBytes, config.seekResponse.asBytes)

/-- Build a seek request from its numbers. -/
def SeekConfig.build (draft : (UInt16 × UInt16) × Bool) : Option SeekConfig :=
  (buildBoth (buildTiming SeekInterval.tryFromUnits SeekTiming.tryNew) some draft).map
    fun parts => ⟨parts.1, parts.2⟩

/-- The numbers that a seek request shows. -/
def SeekConfig.describe (config : SeekConfig) : (UInt16 × UInt16) × Bool :=
  (config.timing.units, config.filterDuplicates)

/-- The timing of an announce request is accepted in its range and order. -/
theorem announceTiming_isSome {minimum maximum : UInt32} :
    (buildTiming AnnounceInterval.tryFromUnits AnnounceTiming.tryNew
      (minimum, maximum)).isSome = true ↔
      0x20 ≤ minimum ∧ minimum ≤ maximum ∧ maximum ≤ 0x00ffffff :=
  buildTiming_isSome.trans ordered_iff

/-- So is the timing of a seek request, with the window as the smaller one. -/
theorem seekTiming_isSome {interval window : UInt16} :
    (buildTiming SeekInterval.tryFromUnits SeekTiming.tryNew (interval, window)).isSome = true ↔
      0x14 ≤ window ∧ window ≤ interval := by
  have hbuild : (buildTiming SeekInterval.tryFromUnits SeekTiming.tryNew
      (interval, window)).isSome = true ↔ ¬ interval < 0x14 ∧ ¬ window < 0x14 ∧
        ¬ interval < window := buildTiming_isSome
  rw [hbuild]
  simp only [Std.not_lt]
  constructor
  · rintro ⟨-, hlow, horder⟩
    exact ⟨hlow, horder⟩
  · rintro ⟨hlow, horder⟩
    exact ⟨Std.le_trans hlow horder, hlow, horder⟩

/-- Announce and seek requests show the numbers and bytes that they were built from. They are
accepted exactly when the intervals are in range and in order, the channel map names some
of the three channels and nothing else, and both payloads fit. -/
theorem sle_requests :
    (IsPartialInv AnnounceConfig.describe AnnounceConfig.build ∧
      ∀ minimum maximum bits data seekResponse,
        (AnnounceConfig.build ((minimum, maximum), bits, data, seekResponse)).isSome = true ↔
          (0x20 ≤ minimum ∧ minimum ≤ maximum ∧ maximum ≤ 0x00ffffff) ∧ NamesChannels bits ∧
            data.length ≤ 64 ∧ seekResponse.length ≤ 64) ∧
    IsPartialInv SeekConfig.describe SeekConfig.build ∧
      ∀ interval window kept, (SeekConfig.build ((interval, window), kept)).isSome = true ↔
        0x14 ≤ window ∧ window ≤ interval := by
  refine ⟨⟨?_, ?_⟩, ?_, ?_⟩
  · have htiming : IsPartialInv (Timing.units : AnnounceTiming → UInt32 × UInt32)
        (buildTiming AnnounceInterval.tryFromUnits AnnounceTiming.tryNew) := timing_isPartialInv
    have hpayload : IsPartialInv (Payload.asBytes : AnnouncePayload → List UInt8)
        (Payload.tryFromSlice (by decide)) := payload_isPartialInv (by decide)
    exact isPartialInv_record (fun config : AnnounceConfig =>
        (config.timing, config.channels, config.data, config.seekResponse))
      (fun parts => ⟨parts.1, parts.2.1, parts.2.2.1, parts.2.2.2⟩)
      (isPartialInv_both htiming (isPartialInv_both channels_isPartialInv
        (isPartialInv_both hpayload hpayload))) (fun _ => rfl) (fun _ => rfl)
  · intro minimum maximum bits data seekResponse
    rw [AnnounceConfig.build, Option.isSome_map, buildBoth_isSome, buildBoth_isSome,
      buildBoth_isSome, announceTiming_isSome, tryFromBits_isSome, tryFromSlice_isSome,
      tryFromSlice_isSome]
  · have htiming : IsPartialInv (Timing.units : SeekTiming → UInt16 × UInt16)
        (buildTiming SeekInterval.tryFromUnits SeekTiming.tryNew) := timing_isPartialInv
    exact isPartialInv_record (fun config : SeekConfig => (config.timing, config.filterDuplicates))
      (fun parts => ⟨parts.1, parts.2⟩) (isPartialInv_both htiming isPartialInv_id)
      (fun _ => rfl) (fun _ => rfl)
  · intro interval window kept
    rw [SeekConfig.build, Option.isSome_map, buildBoth_isSome, seekTiming_isSome,
      Option.isSome_some, eq_self, and_true]

end Sle

end HisiRfCore.DeviceRequests
