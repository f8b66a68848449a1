import CxxDeps.Security.Crc32
import CxxDeps.Security.Sha1
import CxxDeps.Stun.RoundTrip

/-! The codes of a STUN message, with the hash functions of `sys2/security`. -/

namespace CxxDeps.Stun

open Library Security

/-- `hmac_sha1::make_bytes` of an object, with zeros where it is undefined, and
`cyg_ether_crc32`. -/
def codeHash (s : Sha1) : Hash where
  hmac data key :=
    Vector.ofFn fun i => (((s.makeBytes data key).map Prod.snd).getD []).getD i 0
  crc32 := cygEtherCrc32

/-- FINGERPRINT: the CRC-32 of the bytes before it, bit by bit, and a mask. -/
def checked (data : List UInt8) : UInt32 :=
  ~~~ (data.foldl (Crc.byte crc32Poly) (~~~ 0)) ^^^ 0x5354554e

theorem toList_ofFn_getD {n : ℕ} {r : List UInt8} (h : r.length = n) :
    (Vector.ofFn fun i : Fin n => r.getD i 0).toList = r := by
  refine List.ext_getElem (by rw [Vector.length_toList, h]) fun i hi hr => ?_
  rw [Vector.getElem_toList, Vector.getElem_ofFn, List.getD_eq_getElem?_getD,
    List.getElem?_eq_getElem hr, Option.getD_some]

theorem toList_hmac {s : Sha1} (hs : s.buffer.length = 64) {data key : List UInt8}
    (hkey : key.length < 2 ^ 31) (hdata : data.length ≤ 4032) :
    ((codeHash s).hmac data key).toList = hmac Fips180.sha1 key data := by
  have hcode := Sha1.makeBytes_of_le hs hkey hdata
  rw [codeHash]
  dsimp only
  rw [hcode]
  exact toList_ofFn_getD (Fips180.length_sha1 _)

theorem calculateFingerprint_codeHash (s : Sha1) (data : List UInt8) :
    Message.calculateFingerprint (codeHash s) data = checked data := by
  have hcrc : (codeHash s).crc32 data = ~~~ (data.foldl (Crc.byte crc32Poly) (~~~ 0)) :=
    cygEtherCrc32Accumulate_eq 0 data
  rw [Message.calculateFingerprint, checked, hcrc]

theorem length_saslPrepLoop (rest s : List UInt8) (out : ℕ) :
    (saslPrepLoop rest s out).length = s.length := by
  induction rest generalizing s out with
  | nil => exact List.length_set
  | cons c rest ih =>
    unfold saslPrepLoop
    split_ifs <;> simp [ih]

namespace Message

/-- What `serialize` writes up to the fingerprint: a header whose length counts all attributes,
those of the message, and the HMAC-SHA1 of RFC 2104 under the password. -/
def withCode (msg : Message) (password : List UInt8) : List Attribute :=
  msg.attributes ++ [⟨Attribute.messageIntegrity,
    hmac Fips180.sha1 (saslPrep password) (msg.serializeWith 24)⟩]

/-- With the functions of the code, a message is written with the HMAC-SHA1 of what it says and the
CRC-32 of both, and read back with them. -/
theorem serialize_codes {s : Sha1} (hs : s.buffer.length = 64) {msg : Message}
    {password : List UInt8} (hpassword : password.length < 2 ^ 31)
    (htype : msg.type.toNat % 256 < 0x40) (hsize : (msg.serializeWith 24).length ≤ 4032) :
    let front := msg.framed ((msg.attributes.flatMap Attribute.serialize).length + 32)
      ((msg.withCode password).flatMap Attribute.serialize)
    let last : Attribute := ⟨Attribute.fingerprint, toBe32 (checked front)⟩
    (msg.serialize (codeHash s) password).1 = front ++ last.serialize ∧
      deserialize (codeHash s) (front ++ last.serialize) =
        some ({ msg with attributes := msg.withCode password ++ [last] }, checked front) := by
  dsimp only
  have hbytes : (msg.attributes.flatMap Attribute.serialize).length + 32 ≤ 65535 := by
    rw [serializeWith_eq, length_framed] at hsize
    omega
  have hkey : (saslPrep password).length < 2 ^ 31 := by
    rwa [saslPrep, length_saslPrepLoop]
  have hcode : msg.attributes ++ [integrity (codeHash s) msg (saslPrep password)] =
      msg.withCode password := by
    rw [integrity, toList_hmac hs hkey hsize, withCode]
  have hfront : covered (codeHash s) msg (saslPrep password) =
      msg.framed ((msg.attributes.flatMap Attribute.serialize).length + 32)
        ((msg.withCode password).flatMap Attribute.serialize) := by
    rw [covered, hcode]
  have hsigned : signed (codeHash s) msg (saslPrep password) = { msg with
      attributes := msg.withCode password ++ [⟨Attribute.fingerprint, toBe32 (checked
        (msg.framed ((msg.attributes.flatMap Attribute.serialize).length + 32)
          ((msg.withCode password).flatMap Attribute.serialize)))⟩] } := by
    rw [signed, hfront, calculateFingerprint_codeHash, ← hcode, List.append_assoc]
    rfl
  have hread := @deserialize_serialize (codeHash s) msg password htype hbytes
  have hwritten := congrArg Prod.fst (serialize_eq (codeHash s) msg password)
  rw [hsigned, List.flatMap_append, List.flatMap_singleton, ← framed_append] at hwritten
  dsimp only at hwritten
  refine ⟨hwritten, ?_⟩
  rw [hwritten, hsigned, hfront, calculateFingerprint_codeHash] at hread
  exact hread

theorem serialize_codes_request :
    let s : Sha1 := ⟨⟨0, 0, 0, 0, 0⟩, 0, 0, List.replicate 64 0⟩
    let msg : Message := ⟨bindingRequest, 0x2112A442, Vector.replicate 12 7, []⟩
    let front := msg.framed 32 ((msg.withCode [0x61]).flatMap Attribute.serialize)
    let last : Attribute := ⟨Attribute.fingerprint, toBe32 (checked front)⟩
    (msg.serialize (codeHash s) [0x61]).1 = front ++ last.serialize ∧
      deserialize (codeHash s) (front ++ last.serialize) =
        some ({ msg with attributes := msg.withCode [0x61] ++ [last] }, checked front) :=
  serialize_codes (List.length_replicate ..) (by decide) (by decide) (by decide)

end Message

end CxxDeps.Stun
