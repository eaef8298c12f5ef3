import Refract.Oracle.OracleEncoding

/-!
# What the signed bytes of a decision determine

A quorum signs the bytes of `buildPublishPayload`. Their fields carry their lengths, so the bytes
determine the fields (`payloadParts_inj`), and the fields determine contract, coverage type and
decision. The value is cut to 128 bits without a check: the bytes determine the scaled value up to a
multiple of `2 ^ 128` (`payload_eq_iff`). So two tuples are told apart exactly if they do not differ
in nothing but such a multiple (`payload_binds`, `payload_shared`).
-/

namespace Refract.Oracle

open Lib List

/-! ## Numbers and texts as bytes -/

theorem bigEndian_succ (width n : Nat) :
    bigEndian (width + 1) n = UInt8.ofNat (n / 256 ^ width % 256) :: bigEndian width n := by
  simp [bigEndian, range_succ]

theorem bigEndian_length (width n : Nat) : (bigEndian width n).length = width := by
  simp [bigEndian]

/-- The bytes determine the number up to what they have no room for. -/
theorem mod_eq_of_bigEndian {width n m : Nat} (h : bigEndian width n = bigEndian width m) :
    n % 256 ^ width = m % 256 ^ width := by
  induction width with
  | zero => simp [Nat.mod_one]
  | succ width ih =>
    rw [bigEndian_succ, bigEndian_succ, cons.injEq] at h
    have hbyte := congrArg UInt8.toNat h.1
    simp only [UInt8.toNat_ofNat', Nat.reducePow, Nat.mod_mod] at hbyte
    rw [Nat.mod_pow_succ, Nat.mod_pow_succ, ih h.2, hbyte]

theorem utf8Bytes_injective : Function.Injective utf8Bytes := by
  intro s t h
  have hbytes : s.toList.utf8Encode = t.toList.utf8Encode := congrArg List.toByteArray h
  rw [← String.toByteArray_ofList, ← String.toByteArray_ofList, String.ofList_toList,
    String.ofList_toList] at hbytes
  exact String.toByteArray_inj.1 hbytes

/-- The bytes of a value are those of its residue. -/
theorem i128Bytes_eq_iff {n m : Int} :
    i128Bytes n = i128Bytes m ↔ n % 2 ^ 128 = m % 2 ^ 128 := by
  constructor
  · intro h
    obtain ⟨hupper, hlower⟩ := append_inj h (by rw [bigEndian_length, bigEndian_length])
    have hup := mod_eq_of_bigEndian hupper
    have hlow := mod_eq_of_bigEndian hlower
    omega
  · intro h
    have hup : n / 2 ^ 64 % 2 ^ 64 = m / 2 ^ 64 % 2 ^ 64 := by
      omega
    have hlow : n % 2 ^ 64 = m % 2 ^ 64 := by
      omega
    rw [i128Bytes, i128Bytes, hup, hlow]

theorem mem_coverageTypeNumbers {coverageType : String} {n : Nat}
    (h : coverageTypeToU32 coverageType = .ok n) : (coverageType, n) ∈ coverageTypeNumbers := by
  unfold coverageTypeToU32 at h
  split at h
  · rename_i id hlookup
    cases h
    obtain ⟨before, after, hsplit, -⟩ := lookup_eq_some_iff.1 hlookup
    rw [hsplit]
    exact mem_append_right _ mem_cons_self
  · cases h

theorem coverageType_inj {t t' : String} {n n' : Nat} (h : coverageTypeToU32 t = .ok n)
    (h' : coverageTypeToU32 t' = .ok n') (hbytes : bigEndian 4 n = bigEndian 4 n') : t = t' := by
  have htable : ∀ p ∈ coverageTypeNumbers, ∀ q ∈ coverageTypeNumbers,
      bigEndian 4 p.2 = bigEndian 4 q.2 → p.1 = q.1 := by decide
  exact htable _ (mem_coverageTypeNumbers h) _ (mem_coverageTypeNumbers h') hbytes

/-! ## Fields with their lengths -/

theorem payloadPart_eq_ok {bytes part : List UInt8} (h : payloadPart bytes = .ok part) :
    bytes.length < 2 ^ 32 ∧ part = bigEndian 4 bytes.length ++ bytes := by
  unfold payloadPart at h
  split at h
  · rename_i hlength
    exact ⟨hlength, (Except.ok.inj h).symm⟩
  · cases h

/-- A part is read off the front of the bytes in one way. -/
theorem payloadPart_append_inj {a b part part' rest rest' : List UInt8}
    (ha : payloadPart a = .ok part) (hb : payloadPart b = .ok part')
    (h : part ++ rest = part' ++ rest') : a = b ∧ rest = rest' := by
  obtain ⟨hlt, rfl⟩ := payloadPart_eq_ok ha
  obtain ⟨hlt', rfl⟩ := payloadPart_eq_ok hb
  rw [append_assoc, append_assoc] at h
  obtain ⟨hlen, htail⟩ := append_inj h (by rw [bigEndian_length, bigEndian_length])
  have hlength := mod_eq_of_bigEndian hlen
  exact append_inj htail (by omega)

/-- The bytes determine as many fields as there are. -/
theorem payloadParts_inj {fields fields' parts parts' : List (List UInt8)}
    (hparts : fields.map payloadPart = parts.map .ok)
    (hparts' : fields'.map payloadPart = parts'.map .ok) (h : parts.flatten = parts'.flatten)
    (hlength : fields.length = fields'.length) : fields = fields' := by
  induction fields generalizing fields' parts parts' with
  | nil => exact (length_eq_zero_iff.1 hlength.symm).symm
  | cons field fields ih =>
    cases fields' with
    | nil => cases hlength
    | cons field' fields' =>
      obtain ⟨part, rest, rfl, hpart, hrest⟩ := map_eq_cons_iff.1 hparts.symm
      obtain ⟨part', rest', rfl, hpart', hrest'⟩ := map_eq_cons_iff.1 hparts'.symm
      obtain ⟨rfl, htail⟩ := payloadPart_append_inj hpart.symm hpart'.symm h
      rw [ih hrest.symm hrest'.symm htail (Nat.succ.inj hlength)]

/-! ## The payload of a decision -/

/-- The fields of a payload. -/
def payloadFields (contractId : String) (coverageNumber : Nat) (scaled : Int)
    (decisionId : String) : List (List UInt8) :=
  [utf8Bytes "refract-oracle-v1", utf8Bytes contractId, bigEndian 4 coverageNumber,
    i128Bytes scaled, utf8Bytes decisionId]

theorem buildPublishPayload_eq_ok {contractId coverageType decisionId : String} {value : JsNumber}
    {scaled : Int} {bytes : List UInt8} (hscaled : scaleOracleValue coverageType value = .ok scaled)
    (h : buildPublishPayload contractId coverageType value decisionId = .ok bytes) :
    ∃ number, ∃ parts : List (List UInt8), coverageTypeToU32 coverageType = .ok number ∧
      parts.flatten = bytes ∧
      (payloadFields contractId number scaled decisionId).map payloadPart = parts.map .ok := by
  obtain ⟨_, hscaled', h⟩ := exceptBind_eq_ok h
  cases hscaled.symm.trans hscaled'
  obtain ⟨number, hnum, h⟩ := exceptBind_eq_ok h
  obtain ⟨parts, hparts, h⟩ := exceptBind_eq_ok h
  exact ⟨number, parts, hnum, Except.ok.inj h, eq_of_collect hparts⟩

variable {contractId contractId' coverageType coverageType' decisionId decisionId' : String}
  {value value' : ℚ} {scaled scaled' : Int} {bytes bytes' : List UInt8}

/-- Two payloads are equal exactly if everything is but for a multiple of `2 ^ 128` in the value. -/
theorem payload_eq_iff
    (hbytes : buildPublishPayload contractId coverageType (.finite value) decisionId = .ok bytes)
    (hbytes' : buildPublishPayload contractId' coverageType' (.finite value') decisionId' =
      .ok bytes') (hscaled : scaleOracleValue coverageType (.finite value) = .ok scaled)
    (hscaled' : scaleOracleValue coverageType' (.finite value') = .ok scaled') :
    bytes = bytes' ↔ contractId = contractId' ∧ coverageType = coverageType' ∧
      scaled % 2 ^ 128 = scaled' % 2 ^ 128 ∧ decisionId = decisionId' := by
  obtain ⟨number, parts, hnumber, hflat, hparts⟩ := buildPublishPayload_eq_ok hscaled hbytes
  obtain ⟨number', parts', hnumber', hflat', hparts'⟩ :=
    buildPublishPayload_eq_ok hscaled' hbytes'
  rw [← i128Bytes_eq_iff]
  constructor
  · rintro rfl
    have hfields := payloadParts_inj hparts hparts' (hflat.trans hflat'.symm) rfl
    simp only [payloadFields, cons.injEq, and_true, true_and] at hfields
    obtain ⟨hcontract, htype, hvalue, hdecision⟩ := hfields
    exact ⟨utf8Bytes_injective hcontract, coverageType_inj hnumber hnumber' htype, hvalue,
      utf8Bytes_injective hdecision⟩
  · rintro ⟨rfl, rfl, hvalue, rfl⟩
    cases hnumber.symm.trans hnumber'
    rw [payloadFields, hvalue, ← payloadFields, hparts'] at hparts
    have hok : Function.Injective (.ok : List UInt8 → Except JsError (List UInt8)) :=
      fun _ _ => Except.ok.inj
    rw [← hflat, ← hflat', map_injective_iff.2 hok hparts]

/-- Equal bytes are of one contract, coverage type, scaled value and decision, exactly if the two
tuples do not differ in nothing but a multiple of `2 ^ 128` in the value. -/
theorem payload_binds
    (hbytes : buildPublishPayload contractId coverageType (.finite value) decisionId = .ok bytes)
    (hbytes' : buildPublishPayload contractId' coverageType' (.finite value') decisionId' =
      .ok bytes') (hscaled : scaleOracleValue coverageType (.finite value) = .ok scaled)
    (hscaled' : scaleOracleValue coverageType' (.finite value') = .ok scaled') :
    (bytes = bytes' → contractId = contractId' ∧ coverageType = coverageType' ∧
      scaled = scaled' ∧ decisionId = decisionId') ↔
    ¬(contractId = contractId' ∧ coverageType = coverageType' ∧ decisionId = decisionId' ∧
      scaled ≠ scaled' ∧ scaled % 2 ^ 128 = scaled' % 2 ^ 128) := by
  rw [payload_eq_iff hbytes hbytes' hscaled hscaled']
  constructor
  · rintro h ⟨hcontract, htype, hdecision, hne, hmod⟩
    exact hne (h ⟨hcontract, htype, hmod, hdecision⟩).2.2.1
  · rintro h ⟨hcontract, htype, hmod, hdecision⟩
    refine ⟨hcontract, htype, ?_, hdecision⟩
    by_contra hne
    exact h ⟨hcontract, htype, hdecision, hne, hmod⟩

/-- Delays of `0` and of `2 ^ 127` minutes have different bytes, although one is no `i128`. -/
theorem payload_binds_far :
    ∃ bytes bytes', buildPublishPayload "C" "FlightDelay" (.finite 0) "d" = .ok bytes ∧
      buildPublishPayload "C" "FlightDelay" (.finite (2 ^ 127)) "d" = .ok bytes' ∧
      bytes ≠ bytes' := by
  obtain ⟨bytes, hbytes⟩ := exists_of_isOk
    (by decide +kernel : (buildPublishPayload "C" "FlightDelay" (.finite 0) "d").isOk = true)
  obtain ⟨bytes', hbytes'⟩ := exists_of_isOk (by decide +kernel :
    (buildPublishPayload "C" "FlightDelay" (.finite (2 ^ 127)) "d").isOk = true)
  refine ⟨bytes, bytes', hbytes, hbytes', fun hsame => ?_⟩
  have hbinds : _ ∧ _ ∧ (0 : Int) = 2 ^ 127 ∧ _ := (payload_binds hbytes hbytes'
    (by decide +kernel) (by decide +kernel)).2 (by decide) hsame
  exact absurd hbinds.2.2.1 (by decide)

/-- Delays of `0` and of `2 ^ 128` minutes have the same bytes. -/
theorem payload_shared :
    (buildPublishPayload "C" "FlightDelay" (.finite 0) "d").isOk = true ∧
      buildPublishPayload "C" "FlightDelay" (.finite 0) "d" =
        buildPublishPayload "C" "FlightDelay" (.finite (2 ^ 128)) "d" ∧
      scaleOracleValue "FlightDelay" (.finite 0) ≠
        scaleOracleValue "FlightDelay" (.finite (2 ^ 128)) := by
  decide +kernel

end Refract.Oracle
