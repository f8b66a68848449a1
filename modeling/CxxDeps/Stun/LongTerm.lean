import CxxDeps.Stun.RoundTrip

/-! Long-term credentials. `serialize(username, realm, password)` calls the function of
the short-term key, and does not count the fingerprint in the header: the length field is
eight short on every message, and the verifier uses another key. -/

namespace CxxDeps.Stun

open Library

/-- The hash functions of long-term credentials. -/
structure LongHash extends Hash where
  md5 : List UInt8 → Vector UInt8 16

namespace Message

/-- `username:realm:password`. -/
def longKey (username realm password : List UInt8) : List UInt8 :=
  username ++ [0x3A] ++ realm ++ [0x3A] ++ password

/-- `stun_attribute_message_integrity::create_long_turn`. -/
def createLongTurn (H : LongHash) (data username realm password : List UInt8) : Vector UInt8 20 :=
  H.hmac data (H.md5 (longKey username realm password)).toList

/-- `serialize(username, realm, password)`: the bytes, and the password as `sasl_prep`
leaves it. The length field is not written a second time. -/
def serializeLong (H : LongHash) (msg : Message) (_username _realm password : List UInt8) :
    List UInt8 × List UInt8 :=
  let s := msg.serializeWith 24
  let (code, password) := createShortTurn H.toHash s password
  let s := s ++ Attribute.serialize ⟨Attribute.messageIntegrity, code.toList⟩
  (s ++ Attribute.serialize
    ⟨Attribute.fingerprint, toBe32 (calculateFingerprint H.toHash s)⟩, password)

/-- `calculate_message_integrity(username, realm, password)`; `none` as for the short-term
key. -/
def calculateMessageIntegrityLong (H : LongHash) (msg : Message)
    (username realm password : List UInt8) : Option (Vector UInt8 20) :=
  if msg.attributes = [] then none
  else
    let s := serializeWith { msg with attributes := msg.attributes.dropLast } 0
    if s.length < 24 then none
    else some (createLongTurn H (s.take (s.length - 24)) username realm password)

variable (H : LongHash) (msg : Message) (username realm password : List UInt8)

/-- The part that the fingerprint covers, with a length that does not count it. -/
def coveredLong : List UInt8 :=
  msg.framed ((msg.attributes.flatMap Attribute.serialize).length + 24)
    ((msg.attributes ++ [integrity H.toHash msg (saslPrep password)]).flatMap Attribute.serialize)

/-- The message with the two attributes that are added. -/
def signedLong : Message :=
  { msg with
    attributes := msg.attributes ++ [integrity H.toHash msg (saslPrep password),
      ⟨Attribute.fingerprint,
        toBe32 (calculateFingerprint H.toHash (coveredLong H msg password))⟩] }

theorem serializeLong_covered :
    (msg.serializeLong H username realm password).1 = coveredLong H msg password ++
      Attribute.serialize ⟨Attribute.fingerprint,
        toBe32 (calculateFingerprint H.toHash (coveredLong H msg password))⟩ := by
  have hcovered : msg.serializeWith 24 ++ Attribute.serialize ⟨Attribute.messageIntegrity,
      (H.hmac (msg.serializeWith 24) (saslPrep password)).toList⟩ = coveredLong H msg password := by
    rw [← integrity, serializeWith_eq, framed_append, coveredLong]
    simp
  simp only [serializeLong, createShortTurn, hcovered]

/-- `serialize` writes the message with the two attributes. -/
theorem serializeLong_eq :
    (msg.serializeLong H username realm password).1 =
      msg.framed ((msg.attributes.flatMap Attribute.serialize).length + 24)
        ((signedLong H msg password).attributes.flatMap Attribute.serialize) := by
  rw [serializeLong_covered, coveredLong, framed_append]
  simp [signedLong, coveredLong]

theorem length_signedLong :
    ((signedLong H msg password).attributes.flatMap Attribute.serialize).length =
      (msg.attributes.flatMap Attribute.serialize).length + 32 := by
  simp only [signedLong, List.flatMap_append, List.flatMap_cons, List.flatMap_nil,
    List.append_nil, List.length_append, length_integrity, length_fingerprint]

theorem length_serializeLong :
    (msg.serializeLong H username realm password).1.length =
      (msg.attributes.flatMap Attribute.serialize).length + 52 := by
  rw [serializeLong_eq, length_framed, length_signedLong]
  omega

/-- The length field of what `serialize` writes is eight short. -/
theorem lengthField_serializeLong :
    ((msg.serializeLong H username realm password).1.drop 2).take 2 =
      toBe16 (UInt16.ofNat ((msg.serializeLong H username realm password).1.length - 28)) := by
  have hlen : (msg.attributes.flatMap Attribute.serialize).length + 52 - 28 =
      (msg.attributes.flatMap Attribute.serialize).length + 24 := by omega
  rw [length_serializeLong, hlen, serializeLong_eq]
  rfl

theorem toBe16_ne {n : ℕ} (h : 28 ≤ n) :
    toBe16 (UInt16.ofNat (n - 28)) ≠ toBe16 (UInt16.ofNat (n - 20)) := by
  intro heq
  simp only [toBe16, List.cons.injEq, and_true, ← UInt8.toNat_inj, UInt16.toNat_toUInt8,
    UInt16.toNat_ofNat'] at heq
  omega

theorem lengthField_ne :
    ((msg.serializeLong H username realm password).1.drop 2).take 2 ≠
      toBe16 (UInt16.ofNat ((msg.serializeLong H username realm password).1.length - 20)) := by
  rw [lengthField_serializeLong]
  refine toBe16_ne ?_
  rw [length_serializeLong]
  omega

/-- What is read back is the message with the two attributes, and the verifier finds its
code exactly if the two keys give the same one. -/
theorem calculateMessageIntegrityLong_iff (htype : msg.type.toNat % 256 < 0x40)
    (hsize : (msg.attributes.flatMap Attribute.serialize).length + 32 ≤ 65535)
    (given : List UInt8) :
    deserialize H.toHash (msg.serializeLong H username realm password).1 =
        some (signedLong H msg password,
          calculateFingerprint H.toHash (coveredLong H msg password)) ∧
      (calculateMessageIntegrityLong H (signedLong H msg password) username realm given =
          some (H.hmac (msg.serializeWith 24) (saslPrep password)) ↔
        H.hmac (msg.serializeWith 24) (H.md5 (longKey username realm given)).toList =
          H.hmac (msg.serializeWith 24) (saslPrep password)) := by
  have hlen := length_signedLong H msg password
  have hread : readAttributes _ ((signedLong H msg password).attributes.flatMap
      Attribute.serialize) = (signedLong H msg password).attributes :=
    readAttributes_flatMap (by omega) le_rfl
  have hfront : (msg.serializeLong H username realm password).1.take
      ((msg.serializeLong H username realm password).1.length - 8) =
        coveredLong H msg password := by
    rw [serializeLong_covered, List.length_append, length_fingerprint, Nat.add_sub_cancel,
      List.take_left]
  have hnat : (UInt16.ofNat ((msg.attributes.flatMap Attribute.serialize).length + 24)).toNat =
      (msg.attributes.flatMap Attribute.serialize).length + 24 := toNat_ofNat16 (by omega)
  constructor
  · rw [deserialize_header htype (msg.serializeLong H username realm password).1
      (by rw [hnat, hlen]; omega) (by rw [serializeLong_eq]; rfl), hfront, hread]
    rfl
  have hmi := length_integrity H.toHash msg (saslPrep password)
  have hdrop : (signedLong H msg password).attributes.dropLast =
      msg.attributes ++ [integrity H.toHash msg (saslPrep password)] := by
    rw [signedLong]
    simp [List.dropLast_append_of_ne_nil]
  have hs : serializeWith { signedLong H msg password with
      attributes := (signedLong H msg password).attributes.dropLast } 0 =
        msg.serializeWith 24 ++ (integrity H.toHash msg (saslPrep password)).serialize := by
    rw [serializeWith_eq, serializeWith_eq, framed_append, hdrop, List.flatMap_append,
      List.length_append, List.flatMap_singleton, hmi]
    rfl
  have hne : (signedLong H msg password).attributes ≠ [] := by simp [signedLong]
  rw [calculateMessageIntegrityLong, if_neg hne]
  simp only [hs, List.length_append, hmi]
  rw [if_neg (by omega), Nat.add_sub_cancel, List.take_left, createLongTurn, Option.some_inj]

/-- The length field counts all that follows the header, and the verifier finds the code
that the message carries. -/
def LongTermHolds : Prop :=
  let (data, given) := msg.serializeLong H username realm password
  (data.drop 2).take 2 = toBe16 (UInt16.ofNat (data.length - 20)) ∧
    ∃ read fingerprint code, deserialize H.toHash data = some (read, fingerprint) ∧
      ⟨Attribute.messageIntegrity, code⟩ ∈ read.attributes ∧
      (read.calculateMessageIntegrityLong H username realm given).map Vector.toList = some code

/-- No message that is sent with long-term credentials is as it should be. -/
theorem long_term_never : ¬ LongTermHolds H msg username realm password :=
  fun h => lengthField_ne H msg username realm password h.1

/-- An allocation request without attributes: the length field counts 24 of the 32 bytes
behind the header. -/
theorem long_term_empty :
    let H : LongHash := {
      hmac := fun _ key => Vector.replicate 20 (key.getD 0 0)
      crc32 := fun _ => 0
      md5 := fun _ => Vector.replicate 16 1 }
    let msg : Message := ⟨0x0003, 0x2112A442, Vector.replicate 12 7, []⟩
    (msg.serializeLong H [0x75] [0x72] [0x70]).1.length = 52 ∧
      ((msg.serializeLong H [0x75] [0x72] [0x70]).1.drop 2).take 2 = [0, 24] ∧
      ¬ LongTermHolds H msg [0x75] [0x72] [0x70] := by
  refine ⟨by decide, by decide, fun h => ?_⟩
  exact lengthField_ne _ _ [0x75] [0x72] [0x70] h.1

end Message

end CxxDeps.Stun
