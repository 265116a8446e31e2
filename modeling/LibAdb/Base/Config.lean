import LibAdb.Base.Protocol

/-!
# LibAdb.Base.Config — per-connection limits

`base/connection/config.rs`.  The fields of `ConnectionConfig` are private to the source file and every builder
clamps what it stores, so the clamps are fields of the structure here: `new`, `embedded` and the `with` builders
are the only ways to make one, and each discharges them.

The three limits a channel lives by are `rxCap`, `rxWatermark` and `advertisedAckBytes`.  What the receive side
needs of them is `rxWatermark_add_maxPayload_le` and `advertisedAckBytes_add_maxPayload_le`: a full packet let in
one byte under either limit still fits the cap.

Left out: `max_banner_properties`, which only the handshake reads.
-/

namespace LibAdb

/-- `MIN_MAX_PAYLOAD` -/
def minMaxPayload : ℕ := 1024

/-- `INITIAL_DELAYED_ACK_BYTES`: 32 MiB. -/
def initialDelayedAckBytes : ℕ := 32 * 1024 * 1024

/-- `ConnectionConfig::DEFAULT_MAX_CHANNELS` -/
def defaultMaxChannels : ℕ := 32

/-- `ConnectionConfig::MAX_CHANNELS` -/
def maxChannelsLimit : ℕ := 2 ^ 16

structure ConnectionConfig [Usize] where
  /-- `u32`, clamped by `with_max_payload` -/
  maxPayload : ℕ
  /-- `u32`, any value -/
  initialAckBytes : ℕ
  /-- `usize`, any value -/
  maxRxPerChannel : ℕ
  /-- `usize`, clamped by `with_max_channels` -/
  maxChannels : ℕ
  maxPayload_ge : minMaxPayload ≤ maxPayload
  maxPayload_le : maxPayload ≤ maxPayloadConst
  initialAckBytes_lt : initialAckBytes < 2 ^ 32
  maxRxPerChannel_le : maxRxPerChannel ≤ usizeMax
  maxChannels_pos : 0 < maxChannels
  maxChannels_le : maxChannels ≤ maxChannelsLimit

namespace ConnectionConfig

variable [Usize]

/-! ## Builders -/

/-- `ConnectionConfig::new` -/
def new : ConnectionConfig where
  maxPayload := maxPayloadConst
  initialAckBytes := initialDelayedAckBytes
  maxRxPerChannel := usizeMax
  maxChannels := defaultMaxChannels
  maxPayload_ge := by decide
  maxPayload_le := le_rfl
  initialAckBytes_lt := by decide
  maxRxPerChannel_le := le_rfl
  maxChannels_pos := by decide
  maxChannels_le := by decide

/-- `ConnectionConfig::embedded` -/
def embedded : ConnectionConfig where
  maxPayload := 8 * 1024
  initialAckBytes := 32 * 1024
  maxRxPerChannel := 64 * 1024
  maxChannels := defaultMaxChannels
  maxPayload_ge := by decide
  maxPayload_le := by decide
  initialAckBytes_lt := by decide
  maxRxPerChannel_le := le_trans (by norm_num) u32Max_le_usizeMax
  maxChannels_pos := by decide
  maxChannels_le := by decide

/-- `with_max_payload` -/
def withMaxPayload (c : ConnectionConfig) (bytes : UInt32) : ConnectionConfig :=
  { c with
    maxPayload :=
      if maxPayloadConst < bytes.toNat then maxPayloadConst
      else if bytes.toNat < minMaxPayload then minMaxPayload
      else bytes.toNat
    maxPayload_ge := by
      split_ifs with h1 h2
      · decide
      · exact le_rfl
      · omega
    maxPayload_le := by
      split_ifs with h1 h2
      · exact le_rfl
      · decide
      · omega }

/-- `with_initial_ack_bytes` -/
def withInitialAckBytes (c : ConnectionConfig) (bytes : UInt32) : ConnectionConfig :=
  { c with initialAckBytes := bytes.toNat, initialAckBytes_lt := bytes.toNat_lt }

/-- `with_max_rx_per_channel` -/
def withMaxRxPerChannel (c : ConnectionConfig) (bytes : ℕ) (h : bytes ≤ usizeMax) : ConnectionConfig :=
  { c with maxRxPerChannel := bytes, maxRxPerChannel_le := h }

/-- `with_max_channels` -/
def withMaxChannels (c : ConnectionConfig) (n : ℕ) : ConnectionConfig :=
  { c with
    maxChannels := if maxChannelsLimit < n then maxChannelsLimit else if n = 0 then 1 else n
    maxChannels_pos := by
      split_ifs with h1 h2
      · decide
      · decide
      · omega
    maxChannels_le := by
      split_ifs with h1 h2
      · exact le_rfl
      · decide
      · omega }

/-! ## The limits of one channel -/

variable (c : ConnectionConfig)

/-- `rx_cap`: never below one packet. -/
def rxCap : ℕ := if c.maxRxPerChannel < c.maxPayload then c.maxPayload else c.maxRxPerChannel

/-- `rx_ceiling`: the most that may be promised with a full packet still to come. -/
def rxCeiling : ℕ := c.rxCap - c.maxPayload + 1

/-- `rx_watermark` -/
def rxWatermark : ℕ :=
  let want := if c.maxPayload < c.initialAckBytes then c.initialAckBytes else c.maxPayload
  if c.rxCeiling < want then c.rxCeiling else want

/-- `advertised_ack_bytes`; the cast `ceiling as u32` keeps the low 32 bits. -/
def advertisedAckBytes : ℕ :=
  if c.rxCeiling < c.initialAckBytes then c.rxCeiling % 2 ^ 32 else c.initialAckBytes

theorem maxPayload_le_rxCap : c.maxPayload ≤ c.rxCap := by
  unfold rxCap
  split_ifs with h
  · exact le_rfl
  · omega

theorem rxCap_le_usizeMax : c.rxCap ≤ usizeMax := by
  have hp : c.maxPayload ≤ usizeMax :=
    le_trans (le_trans c.maxPayload_le (by decide)) u32Max_le_usizeMax
  unfold rxCap
  split_ifs with h
  · exact hp
  · exact c.maxRxPerChannel_le

theorem rxCeiling_pos : 0 < c.rxCeiling := Nat.succ_pos _

theorem rxCeiling_add_maxPayload : c.rxCeiling + c.maxPayload = c.rxCap + 1 := by
  have := c.maxPayload_le_rxCap
  unfold rxCeiling
  omega

theorem maxPayload_pos : 0 < c.maxPayload := lt_of_lt_of_le (by decide) c.maxPayload_ge

theorem rxWatermark_pos : 0 < c.rxWatermark := by
  have h1 := c.rxCeiling_pos
  have h2 := c.maxPayload_pos
  unfold rxWatermark
  dsimp only
  split_ifs <;> omega

theorem rxWatermark_le_rxCeiling : c.rxWatermark ≤ c.rxCeiling := by
  unfold rxWatermark
  dsimp only
  split_ifs <;> omega

/-- The cast of the ceiling loses nothing: it is only made when the ceiling is below a `u32`. -/
theorem advertisedAckBytes_eq_min : c.advertisedAckBytes = min c.rxCeiling c.initialAckBytes := by
  have h := c.initialAckBytes_lt
  unfold advertisedAckBytes
  split_ifs with hc
  · rw [Nat.mod_eq_of_lt (by omega)]
    omega
  · omega

/-- **A full packet on the last byte under the watermark fits.** -/
theorem rxWatermark_add_maxPayload_le : c.rxWatermark + c.maxPayload ≤ c.rxCap + 1 := by
  have h1 := c.rxWatermark_le_rxCeiling
  have h2 := c.rxCeiling_add_maxPayload
  omega

/-- **A full packet on the last byte of credit fits.** -/
theorem advertisedAckBytes_add_maxPayload_le : c.advertisedAckBytes + c.maxPayload ≤ c.rxCap + 1 := by
  have h1 := c.advertisedAckBytes_eq_min
  have h2 := c.rxCeiling_add_maxPayload
  omega

/-- **Exactly the configurations that grant credit leave the device able to send and a packet able to fit.**  The casts
to `usize` lose nothing, the ceiling neither underflows nor overflows, and it is narrowed to `u32` only where it fits. -/
theorem limits_in_range_iff :
    (c.initialAckBytes ≤ usizeMax ∧ c.maxPayload ≤ usizeMax ∧
      c.maxPayload ≤ c.rxCap ∧ c.rxCap - c.maxPayload + 1 ≤ usizeMax ∧
      (c.rxCeiling < c.initialAckBytes → c.rxCeiling < 2 ^ 32) ∧
      (1 ≤ c.rxWatermark ∧ c.rxWatermark ≤ c.rxCap - c.maxPayload + 1) ∧
      (1 ≤ c.advertisedAckBytes ∧ c.advertisedAckBytes ≤ c.rxCap - c.maxPayload + 1)) ↔ 1 ≤ c.initialAckBytes := by
  rw [c.advertisedAckBytes_eq_min]
  refine ⟨fun h => h.2.2.2.2.2.2.1.trans (min_le_right _ _), fun h => ?_⟩
  have hcap := c.rxCap_le_usizeMax
  have hpay := c.maxPayload_le_rxCap
  have hpos := c.maxPayload_pos
  have hceil := c.rxCeiling_pos
  have hword : c.initialAckBytes < 2 ^ 32 := c.initialAckBytes_lt
  have hmax := u32Max_le_usizeMax
  refine ⟨by omega, by omega, hpay, by omega, by omega, ⟨c.rxWatermark_pos, c.rxWatermark_le_rxCeiling⟩, ?_⟩
  exact ⟨le_min hceil h, min_le_left _ _⟩

end ConnectionConfig

/-- `with_initial_ack_bytes` takes a zero, and the device is then granted nothing at all. -/
theorem no_credit_advertised :
    letI := usize64
    (ConnectionConfig.new.withInitialAckBytes 0).advertisedAckBytes = 0 := by
  let u := usize64
  rw [ConnectionConfig.advertisedAckBytes_eq_min]
  exact Nat.min_zero _

end LibAdb
