import ReserveGrid.TemplateManager.CoinbaseTx
import ReserveGrid.TemplateManager.Config

/-!
# Valid coinbases

Whatever extranonce the gateway puts between the halves, the result is the
intended transaction. The configuration accepts payout scripts of any length,
and a script that its length byte cannot hold does not give an error but a
panic.
-/

namespace ReserveGrid.TemplateManager

open Support Bitcoin Consensus

/-- A payout script that the loader lets through. -/
def AcceptedScript (libs : ConfigLibs) (script : Bytes) : Prop :=
  ∃ cfg : TemplateManagerConfig, cfg.validate libs = .ok () ∧
    hexDecode cfg.coinbaseOutputScriptHex = .ok script

/-- The configuration with a given payout script, all else at its default. -/
def scriptConfig (script : Bytes) : TemplateManagerConfig where
  backend := "bitcoind"
  pollIntervalSecs := none
  verifierTcpAddr := none
  httpListenAddr := none
  rpcUrl := none
  rpcUser := none
  rpcPass := none
  stratumAddr := none
  stratumAuth := none
  coinbaseOutputScriptHex := hexEncode script
  extranonceSize := 4

/-- The loader looks at the hexadecimal form of a script, and at nothing
else. -/
theorem acceptedScript (libs : ConfigLibs) (script : Bytes) :
    AcceptedScript libs script := by
  refine ⟨scriptConfig script, ?_, hexDecode_hexEncode script⟩
  simp [TemplateManagerConfig.validate, TemplateManagerConfig.validateBackend,
    scriptConfig]

/-- What the halves are built from. -/
structure CoinbaseInputs where
  height : UInt32
  value : UInt64
  payout : Bytes
  extranonceSize : ℕ
  aux : Bytes
  commitment : Option Bytes

namespace CoinbaseInputs

def halves (inputs : CoinbaseInputs) : Except Failure (Bytes × Bytes) :=
  buildCoinbaseHalves inputs.height inputs.value inputs.payout
    inputs.extranonceSize inputs.aux inputs.commitment

def scriptsigLen (inputs : CoinbaseInputs) : ℕ :=
  (bip34HeightPush inputs.height).length + inputs.aux.length +
    inputs.extranonceSize

/-- The script of the coinbase with a given extranonce. -/
def scriptsig (inputs : CoinbaseInputs) (e : Bytes) : Bytes :=
  bip34HeightPush inputs.height ++ inputs.aux ++ e

/-- Around every extranonce of the size, the halves parse with no byte left as
the intended transaction, with a script of a valid length. -/
def Spells (inputs : CoinbaseInputs) (halves : Bytes × Bytes) : Prop :=
  ∀ e : Bytes, e.length = inputs.extranonceSize →
    transaction.decodeAll (halves.1 ++ e ++ halves.2) =
      some (coinbaseTx (inputs.scriptsig e) inputs.value inputs.payout
        inputs.commitment) ∧
    2 ≤ (inputs.scriptsig e).length ∧ (inputs.scriptsig e).length ≤ 100

/-- The halves are an error or spell the transaction, and a payout script that
the loader accepts never panics. -/
structure Sound (libs : ConfigLibs) (inputs : CoinbaseInputs) : Prop where
  spells : ∀ halves, inputs.halves = .ok halves → inputs.Spells halves
  returns : AcceptedScript libs inputs.payout →
    ∀ message, inputs.halves ≠ .error (.panicked message)

theorem two_le_length_push (height : UInt32) :
    2 ≤ (bip34HeightPush height).length := by
  unfold bip34HeightPush
  split
  · exact le_refl 2
  · rename_i hne
    have hpos : 0 < height.toNat := by
      rw [Nat.pos_iff_ne_zero]
      intro hzero
      exact hne (UInt32.toNat_inj.mp hzero)
    have hlt : height.toNat < 256 ^ 4 := lt_of_lt_of_le height.toNat_lt (by decide)
    obtain ⟨init, last, heq, -⟩ := minimalLe_eq_append hpos hlt
    dsimp only
    rw [heq]
    split
    · simp
    · simp

variable {inputs : CoinbaseInputs}

/-- Halves that are built spell the transaction. -/
theorem spells_of_halves {halves : Bytes × Bytes}
    (h : inputs.halves = .ok halves) : inputs.Spells halves := by
  intro e he
  obtain ⟨hlength, hpayout, hcommitment, rfl⟩ := buildCoinbaseHalves_eq_ok h
  have hscript : (inputs.scriptsig e).length =
      (bip34HeightPush inputs.height).length + inputs.aux.length +
        inputs.extranonceSize := by
    rw [scriptsig, List.length_append, List.length_append, he]
  have hpush := two_le_length_push inputs.height
  refine ⟨?_, by omega, by omega⟩
  rw [← hscript]
  exact decodeAll_coinbaseTx (hscript ▸ lt_of_le_of_lt hlength (by decide))
    hpayout hcommitment

/-- The panic is the one of a payout script too long for its length byte, in a
coinbase whose own script is not too long. -/
theorem halves_eq_panicked_iff :
    (∃ message, inputs.halves = .error (.panicked message)) ↔
      253 ≤ inputs.payout.length ∧ inputs.scriptsigLen ≤ 100 := by
  unfold halves buildCoinbaseHalves scriptsigLen
  dsimp only
  split
  · rename_i hlong
    simp [hlong]
  · rename_i hshort
    rw [not_not] at hshort
    rw [if_neg (by omega)]
    split
    · rename_i hpayout
      simp [hshort, not_lt.mp hpayout]
    · rename_i hpayout
      rw [not_not] at hpayout
      split
      · simp [hpayout]
      · simp [hpayout]

end CoinbaseInputs

/-- The halves are sound exactly when the payout script fits its length byte,
or the coinbase is refused for the length of its own script. -/
theorem coinbaseHalves_sound_iff (libs : ConfigLibs) (inputs : CoinbaseInputs) :
    inputs.Sound libs ↔
      inputs.payout.length < 253 ∨ 100 < inputs.scriptsigLen := by
  constructor
  · intro h
    by_contra hnot
    rw [not_or, not_lt, not_lt] at hnot
    obtain ⟨message, hpanicked⟩ := CoinbaseInputs.halves_eq_panicked_iff.mpr hnot
    exact h.returns (acceptedScript libs inputs.payout) message hpanicked
  · intro hfits
    refine ⟨fun _ => CoinbaseInputs.spells_of_halves, fun _ message hpanicked => ?_⟩
    have hlong := CoinbaseInputs.halves_eq_panicked_iff.mp ⟨message, hpanicked⟩
    omega

/-- A payout script of 253 bytes, which the loader accepts. -/
def wideScriptInputs : CoinbaseInputs where
  height := 840000
  value := 312500000
  payout := List.replicate 253 0x51
  extranonceSize := 4
  aux := []
  commitment := none

/-- The script is accepted, and the halves panic for it. -/
theorem not_coinbaseHalves_sound :
    ¬ ∀ (libs : ConfigLibs) (inputs : CoinbaseInputs), inputs.Sound libs := by
  intro h
  have hlib : ConfigLibs :=
    ⟨⟨fun _ => .error "", fun _ => .error ""⟩, fun _ => "", fun text => text⟩
  have hpanicked : wideScriptInputs.halves = .error (.panicked
      "coinbase output script too large for single-byte varint") := by
    decide +kernel
  exact (h hlib wideScriptInputs).returns (acceptedScript hlib _) _ hpanicked

end ReserveGrid.TemplateManager
