import DeadcatNode.MarketCreation

/-!
# The format of recovery payloads

A payload is a row of fields of fixed width.  Encoding a hint and decoding a
payload both compute the relation between a hint and the fields which describe
it, so each of them is the inverse of the other.
-/

namespace DeadcatNode

open Checked

variable {payload : Bytes}

def MarketCollateral.index : MarketCollateral → ℕ
  | .policyAsset => 0
  | .liquidMainnetUsdt => 1
  | .asset _ => 15

def MarketCollateral.assetBytes : MarketCollateral → Bytes
  | .asset assetId => KeyEncoding.bigEndian 32 assetId
  | _ => []

def MarketRecoveryHint.encode (hint : MarketRecoveryHint) : Except RecoveryError Bytes := do
  validateExpiryHeight hint.expiryHeight
  let payoutIndex ← okOr (basePayouts.idxOf? hint.basePayout) .invalidBasePayout
  return marketV1Tag :: (KeyEncoding.bigEndian 32 hint.oraclePublicKey ++
    UInt8.ofNat (16 * hint.collateral.index + payoutIndex) ::
      (KeyEncoding.bigEndian 4 hint.expiryHeight ++ hint.collateral.assetBytes))

/-! ## Scripts -/

theorem parseRecoveryScript_eq_ok {script : Script} :
    parseRecoveryScript script = .ok payload ↔ recoveryScript payload = .ok script := by
  simp only [recoveryScript, bind_eq_ok, require_eq_ok, pure_eq_ok, not_or, not_lt, exists_const]
  have hmax : maxRecoveryPayloadLen < 256 := by decide
  constructor
  · intro hparse
    unfold parseRecoveryScript at hparse
    split at hparse
    · next opcode payloadLen rest =>
      simp only [bind_eq_ok, require_eq_ok, pure_eq_ok, not_or, not_lt, not_not] at hparse
      obtain ⟨-, ⟨hrest, rfl⟩, -, ⟨-, hbound, hlength⟩, rfl⟩ := hparse
      have hbyte : UInt8.ofNat rest.length = payloadLen := by rw [hlength, UInt8.ofNat_toNat]
      exact ⟨⟨hrest, hlength ▸ hbound⟩, by rw [hbyte]⟩
    · cases hparse
  · rintro ⟨⟨hne, hbound⟩, rfl⟩
    have hlength : (UInt8.ofNat payload.length).toNat = payload.length :=
      UInt8.toNat_ofNat_of_lt' (lt_of_le_of_lt hbound hmax)
    have hpos : payload.length ≠ 0 := by simpa using hne
    simp [parseRecoveryScript, require, hlength, hne, hpos, hbound]

theorem validateRecoveryTxout_recoveryTxout {policyAsset : AssetId}
    {txout : TxOut} (htxout : recoveryTxout policyAsset payload = .ok txout) :
    validateRecoveryTxout txout policyAsset = .ok payload := by
  simp only [recoveryTxout, bind_eq_ok, pure_eq_ok] at htxout
  obtain ⟨script, hscript, rfl⟩ := htxout
  simp only [validateRecoveryTxout, bind_eq_ok, require_eq_ok]
  exact ⟨(), by simp, parseRecoveryScript_eq_ok.mpr hscript⟩

/-! ## Fields -/

/-- A payload cut into its fields. -/
structure RecoveryFields where
  tag : UInt8
  key : Bytes
  indexes : UInt8
  expiry : Bytes
  asset : Bytes
  hkey : key.length = 32
  hexpiry : expiry.length = 4

namespace RecoveryFields

variable (fields : RecoveryFields)

def toBytes : Bytes :=
  fields.tag :: (fields.key ++ fields.indexes :: (fields.expiry ++ fields.asset))

theorem length_toBytes : fields.toBytes.length = 38 + fields.asset.length := by
  simp only [toBytes, List.length_cons, List.length_append, fields.hkey, fields.hexpiry]
  omega

theorem getD_tag : fields.toBytes.getD 0 0 = fields.tag := rfl

theorem getD_indexes : fields.toBytes.getD 33 0 = fields.indexes := by
  simp [toBytes, List.getD_eq_getElem?_getD, fields.hkey]

theorem extract_key : fields.toBytes.extract 1 33 = fields.key := by
  simp [toBytes, List.extract_eq_take_drop, fields.hkey]

theorem extract_expiry : fields.toBytes.extract 34 38 = fields.expiry := by
  have hkey : fields.key.drop 33 = [] := List.drop_eq_nil_of_le (by rw [fields.hkey]; omega)
  simp [toBytes, List.extract_eq_take_drop, List.drop_append, hkey, fields.hkey, fields.hexpiry]

theorem extract_asset (hasset : fields.asset.length = 32) :
    fields.toBytes.extract 38 70 = fields.asset := by
  have hkey : fields.key.drop 37 = [] := List.drop_eq_nil_of_le (by rw [fields.hkey]; omega)
  simp [toBytes, List.drop_append, hkey, fields.hkey, fields.hexpiry,
    List.take_of_length_le, hasset]

theorem exists_toBytes (hlength : 38 ≤ payload.length) :
    ∃ fields : RecoveryFields, fields.toBytes = payload := by
  have hpos : 0 < payload.length := by omega
  obtain ⟨tag, rest, rfl⟩ := List.exists_cons_of_length_pos hpos
  have hrest : 37 ≤ rest.length := by simpa using hlength
  have hdrop : 0 < (rest.drop 32).length := by
    rw [List.length_drop]
    omega
  obtain ⟨indexes, back, hback⟩ := List.exists_cons_of_length_pos hdrop
  have hlength := congrArg List.length hback
  rw [List.length_drop, List.length_cons] at hlength
  refine ⟨⟨tag, rest.take 32, indexes, back.take 4, back.drop 4, ?_, ?_⟩, ?_⟩
  · rw [List.length_take]
    omega
  · rw [List.length_take]
    omega
  · rw [toBytes, List.take_append_drop, ← hback, List.take_append_drop]

end RecoveryFields

/-! ## The format -/

/-- The index and the trailing bytes which stand for a collateral. -/
inductive MarketCollateral.Format : MarketCollateral → ℕ → Bytes → Prop where
  | policyAsset : Format .policyAsset 0 []
  | liquidMainnetUsdt : Format .liquidMainnetUsdt 1 []
  | asset (bytes : Bytes) (hlength : bytes.length = 32) :
      Format (.asset (KeyEncoding.value bytes)) 15 bytes

namespace MarketCollateral.Format

variable {collateral : MarketCollateral} {index : ℕ} {bytes : Bytes}

theorem length_eq (hformat : collateral.Format index bytes) :
    bytes.length = 0 ∨ bytes.length = 32 := by
  cases hformat with
  | policyAsset | liquidMainnetUsdt => exact .inl rfl
  | asset _ hlength => exact .inr hlength

theorem typed (hformat : collateral.Format index bytes) :
    ∀ assetId, collateral = .asset assetId → assetId < 256 ^ 32 := by
  intro assetId hasset
  cases hformat with
  | policyAsset | liquidMainnetUsdt => cases hasset
  | asset _ hlength =>
    cases hasset
    have hlt := KeyEncoding.value_lt bytes
    rwa [hlength] at hlt

theorem index_eq (hformat : collateral.Format index bytes) : collateral.index = index := by
  cases hformat <;> rfl

theorem assetBytes_eq (hformat : collateral.Format index bytes) :
    collateral.assetBytes = bytes := by
  cases hformat with
  | policyAsset => rfl
  | liquidMainnetUsdt => rfl
  | asset _ hlength =>
    have hbytes := KeyEncoding.bigEndian_value bytes
    rw [hlength] at hbytes
    exact hbytes

end MarketCollateral.Format

theorem MarketCollateral.format {collateral : MarketCollateral}
    (htyped : ∀ assetId, collateral = .asset assetId → assetId < 256 ^ 32) :
    collateral.Format collateral.index collateral.assetBytes := by
  cases collateral with
  | policyAsset => exact .policyAsset
  | liquidMainnetUsdt => exact .liquidMainnetUsdt
  | asset assetId =>
    have hformat := Format.asset (KeyEncoding.bigEndian 32 assetId)
      (KeyEncoding.length_bigEndian 32 assetId)
    rwa [KeyEncoding.value_bigEndian (htyped assetId rfl)] at hformat

theorem MarketCollateral.index_lt (collateral : MarketCollateral) : collateral.index < 16 := by
  cases collateral <;> simp [index]

/-- The fields which stand for a hint. -/
structure RecoveryFields.Describes (fields : RecoveryFields)
    (hint : MarketRecoveryHint) : Prop where
  tag : fields.tag = marketV1Tag
  key : KeyEncoding.value fields.key = hint.oraclePublicKey
  collateral : hint.collateral.Format (fields.indexes.toNat / 16) fields.asset
  payout : basePayouts[fields.indexes.toNat % 16]? = some hint.basePayout
  expiry : KeyEncoding.value fields.expiry = hint.expiryHeight
  expires : hint.expiryHeight ≠ 0 ∧ hint.expiryHeight < 500000000

/-- The public key and the asset are arrays of 32 bytes. -/
structure MarketRecoveryHint.Typed (hint : MarketRecoveryHint) : Prop where
  key : hint.oraclePublicKey < 256 ^ 32
  asset : ∀ assetId, hint.collateral = .asset assetId → assetId < 256 ^ 32

variable {fields : RecoveryFields} {hint : MarketRecoveryHint}

theorem validateExpiryHeight_eq_ok {height : ℕ} {u : Unit} :
    validateExpiryHeight height = .ok u ↔ height ≠ 0 ∧ height < 500000000 := by
  simp [validateExpiryHeight]

theorem decodeCollateral_eq_ok {index : ℕ} {collateral : MarketCollateral} :
    decodeCollateral index fields.toBytes = .ok collateral ↔
      collateral.Format index fields.asset := by
  have hknown : fields.toBytes.length = marketKnownPayloadLen ↔ fields.asset = [] := by
    rw [fields.length_toBytes, marketKnownPayloadLen]
    simp
  have hexotic : fields.toBytes.length = marketExoticPayloadLen ↔ fields.asset.length = 32 := by
    rw [fields.length_toBytes, marketExoticPayloadLen]
    omega
  simp only [decodeCollateral, hknown, hexotic]
  constructor
  · intro hdecode
    split at hdecode
    · next h =>
      cases hdecode
      rw [h.1, h.2]
      exact .policyAsset
    split at hdecode
    · next h =>
      cases hdecode
      rw [h.1, h.2]
      exact .liquidMainnetUsdt
    split at hdecode
    · next h =>
      cases hdecode
      rw [h.1, fields.extract_asset h.2]
      exact .asset fields.asset h.2
    split at hdecode
    · cases hdecode
    · cases hdecode
  · intro hformat
    have hextract := fields.extract_asset
    generalize fields.asset = asset at hformat hextract
    cases hformat with
    | policyAsset => simp
    | liquidMainnetUsdt => simp
    | asset _ hlength => simp [hlength, hextract hlength]

theorem decode_toBytes_eq_ok :
    MarketRecoveryHint.decode fields.toBytes = .ok hint ↔ fields.Describes hint := by
  simp only [MarketRecoveryHint.decode, bind_eq_ok, pure_eq_ok,
    require_eq_ok, validateExpiryHeight_eq_ok, decodeCollateral_eq_ok]
  simp only [fields.getD_tag, fields.getD_indexes, fields.extract_key,
    fields.extract_expiry]
  have hpayout : ∀ value : ℕ, basePayouts[fields.indexes.toNat % 16]? = some value ↔
        basePayouts.getD (fields.indexes.toNat % 16) 0 = value := by
    intro value
    have hindex : fields.indexes.toNat % 16 < basePayouts.length := Nat.mod_lt _ (by decide)
    rw [List.getD_eq_getElem?_getD, List.getElem?_eq_getElem hindex]
    simp
  constructor
  · rintro ⟨-, -, -, htag, -, hexpires, collateral, hcollateral, rfl⟩
    exact ⟨htag, rfl, hcollateral, (hpayout _).mpr rfl, rfl, hexpires⟩
  · intro hdescribes
    have hlength : ¬(fields.toBytes.length ≠ marketKnownPayloadLen ∧
        fields.toBytes.length ≠ marketExoticPayloadLen) := by
      have hasset := hdescribes.collateral.length_eq
      rw [fields.length_toBytes, marketKnownPayloadLen, marketExoticPayloadLen]
      omega
    refine ⟨(), hlength, (), hdescribes.tag, (),
      hdescribes.expiry ▸ hdescribes.expires, hint.collateral, hdescribes.collateral, ?_⟩
    rw [hdescribes.key, (hpayout _).mp hdescribes.payout, hdescribes.expiry]

theorem decode_eq_ok : MarketRecoveryHint.decode payload = .ok hint ↔
      ∃ fields : RecoveryFields, fields.toBytes = payload ∧ fields.Describes hint := by
  constructor
  · intro hdecode
    have hlength : 38 ≤ payload.length := by
      have hcopy := hdecode
      simp only [MarketRecoveryHint.decode, bind_eq_ok, require_eq_ok] at hcopy
      obtain ⟨-, hlength, -⟩ := hcopy
      rw [marketKnownPayloadLen, marketExoticPayloadLen] at hlength
      omega
    obtain ⟨fields, rfl⟩ := RecoveryFields.exists_toBytes hlength
    exact ⟨fields, rfl, decode_toBytes_eq_ok.mp hdecode⟩
  · rintro ⟨fields, rfl, hdescribes⟩
    exact decode_toBytes_eq_ok.mpr hdescribes

theorem RecoveryFields.Describes.typed (hdescribes : fields.Describes hint) : hint.Typed where
  key := by
    have hlt := KeyEncoding.value_lt fields.key
    rwa [fields.hkey, hdescribes.key] at hlt
  asset := hdescribes.collateral.typed

theorem idxOf?_basePayouts {value index : ℕ} :
    basePayouts.idxOf? value = some index ↔ basePayouts[index]? = some value := by
  have hnodup : basePayouts.Nodup := by decide
  rw [List.idxOf?_eq_some_iff, List.getElem?_eq_some_iff]
  constructor
  · rintro ⟨hlt, heq, -⟩
    exact ⟨hlt, heq⟩
  · rintro ⟨hlt, heq⟩
    refine ⟨hlt, heq, ?_⟩
    intro earlier hearlier hsame
    have hindex := hnodup.getElem_inj_iff.mp (hsame.trans heq.symm)
    omega

theorem encode_eq_ok (htyped : hint.Typed) : hint.encode = .ok payload ↔ ∃ fields : RecoveryFields,
      fields.toBytes = payload ∧ fields.Describes hint := by
  simp only [MarketRecoveryHint.encode, bind_eq_ok, pure_eq_ok, okOr_eq_ok,
    validateExpiryHeight_eq_ok, idxOf?_basePayouts, exists_and_left, exists_const]
  constructor
  · rintro ⟨hexpires, payoutIndex, hpayout, rfl⟩
    have hsmall : payoutIndex < 16 := (List.getElem?_eq_some_iff.mp hpayout).1
    have hindex := hint.collateral.index_lt
    have hbyte : (UInt8.ofNat (16 * hint.collateral.index +
        payoutIndex)).toNat = 16 * hint.collateral.index + payoutIndex :=
      UInt8.toNat_ofNat_of_lt' (by omega : _ < 256)
    have hexpiry : hint.expiryHeight < 256 ^ 4 := by omega
    refine ⟨⟨marketV1Tag, KeyEncoding.bigEndian 32 hint.oraclePublicKey,
      UInt8.ofNat (16 * hint.collateral.index + payoutIndex),
      KeyEncoding.bigEndian 4 hint.expiryHeight, hint.collateral.assetBytes,
      KeyEncoding.length_bigEndian _ _, KeyEncoding.length_bigEndian _ _⟩, rfl, ?_⟩
    exact {
      tag := rfl
      key := KeyEncoding.value_bigEndian htyped.key
      collateral := by
        rw [hbyte, show (16 * hint.collateral.index + payoutIndex) / 16 =
          hint.collateral.index by omega]
        exact MarketCollateral.format htyped.asset
      payout := by
        rwa [hbyte, show (16 * hint.collateral.index + payoutIndex) % 16 = payoutIndex by omega]
      expiry := KeyEncoding.value_bigEndian hexpiry
      expires := hexpires }
  · rintro ⟨fields, rfl, hdescribes⟩
    refine ⟨hdescribes.expires, _, hdescribes.payout, ?_⟩
    have hkey := KeyEncoding.bigEndian_value fields.key
    rw [fields.hkey, hdescribes.key] at hkey
    have hexpiry := KeyEncoding.bigEndian_value fields.expiry
    rw [fields.hexpiry, hdescribes.expiry] at hexpiry
    have hindexes : 16 * (fields.indexes.toNat / 16) +
        fields.indexes.toNat % 16 = fields.indexes.toNat := by omega
    rw [hkey, hexpiry, hdescribes.collateral.index_eq,
      hdescribes.collateral.assetBytes_eq, hindexes, UInt8.ofNat_toNat,
      RecoveryFields.toBytes, hdescribes.tag]

theorem RecoveryFields.Describes.parseRecoveryScript (hdescribes : fields.Describes hint) :
    ∃ script, recoveryScript fields.toBytes = .ok script ∧
      DeadcatNode.parseRecoveryScript script = .ok fields.toBytes := by
  have hscript : recoveryScript fields.toBytes =
      .ok (0x6a :: UInt8.ofNat fields.toBytes.length :: fields.toBytes) := by
    have hasset := hdescribes.collateral.length_eq
    have hlength := fields.length_toBytes
    have hne : fields.toBytes ≠ [] := by simp [toBytes]
    have hbound : ¬maxRecoveryPayloadLen < fields.toBytes.length := by
      rw [hlength, maxRecoveryPayloadLen, marketExoticPayloadLen]
      omega
    rw [recoveryScript, bind_eq_ok]
    exact ⟨(), require_eq_ok.mpr (not_or.mpr ⟨hne, hbound⟩), rfl⟩
  exact ⟨_, hscript, parseRecoveryScript_eq_ok.mpr hscript⟩

/-- Decoding accepts exactly the encodings, and is inverse to encoding both
ways. -/
theorem recovery_codec_bijective : (∀ hint : MarketRecoveryHint, hint.Typed → ∀ payload,
      hint.encode = .ok payload → MarketRecoveryHint.decode payload = .ok hint ∧
          ∃ script, recoveryScript payload = .ok script ∧
            parseRecoveryScript script = .ok payload) ∧
      (∀ payload hint, MarketRecoveryHint.decode payload = .ok hint →
        hint.Typed ∧ hint.encode = .ok payload) ∧
      (∀ payload payload' hint, MarketRecoveryHint.decode payload = .ok hint →
          MarketRecoveryHint.decode payload' = .ok hint → payload = payload') ∧
      ∀ payload : Bytes, (¬∃ hint : MarketRecoveryHint, hint.Typed ∧ hint.encode = .ok payload) →
        ∃ error, MarketRecoveryHint.decode payload = .error error := by
  have hencode : ∀ payload hint,
      MarketRecoveryHint.decode payload = .ok hint → hint.Typed ∧ hint.encode = .ok payload := by
    intro payload hint hdecode
    obtain ⟨fields, hbytes, hdescribes⟩ := decode_eq_ok.mp hdecode
    have htyped := hdescribes.typed
    exact ⟨htyped, (encode_eq_ok htyped).mpr ⟨fields, hbytes, hdescribes⟩⟩
  refine ⟨?_, hencode, ?_, ?_⟩
  · intro hint htyped payload hpayload
    obtain ⟨fields, rfl, hdescribes⟩ := (encode_eq_ok htyped).mp hpayload
    exact ⟨decode_toBytes_eq_ok.mpr hdescribes, hdescribes.parseRecoveryScript⟩
  · intro payload payload' hint hdecode hdecode'
    have heq := (hencode payload hint hdecode).2
    exact Except.ok.inj (heq.symm.trans (hencode payload' hint hdecode').2)
  · intro payload himage
    cases hdecode : MarketRecoveryHint.decode payload with
    | error error => exact ⟨error, rfl⟩
    | ok hint => exact absurd ⟨hint, hencode payload hint hdecode⟩ himage

example : (MarketRecoveryHint.encode ⟨0x11, .policyAsset, 10000, 123456⟩).map
    (fun payload => (payload.length, payload.getD 33 0)) = .ok (38, 0x06) := by
  decide +kernel

end DeadcatNode
