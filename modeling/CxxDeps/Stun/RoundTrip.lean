import CxxDeps.Stun.Message

/-! A message is read back as it was written, with the two attributes that
`serialize` adds, and the verifier covers the prefix that the writer covered. The key is
another matter: `sasl_prep` rewrites the caller's password, and what it leaves may be
rewritten once more. -/

namespace CxxDeps.Stun

open Library

theorem toNat_ofNat16 {n : ℕ} (h : n ≤ 65535) : (UInt16.ofNat n).toNat = n := by
  rw [UInt16.toNat_ofNat']
  omega

/-! ### Attributes -/

namespace Attribute

theorem length_serialize (attr : Attribute) :
    attr.serialize.length = attr.value.length + 4 + padding attr.value.length := by
  simp [serialize]
  omega

theorem deserialize_append {attr : Attribute} (h : attr.value.length ≤ 65535)
    (rest : List UInt8) :
    deserialize (attr.serialize ++ rest) = some (attr, attr.serialize.length) := by
  have hlen : (UInt16.ofNat attr.value.length).toNat = attr.value.length := toNat_ofNat16 h
  rw [length_serialize]
  simp only [serialize, toBe16, List.cons_append, List.nil_append, List.append_assoc,
    deserialize, be16_toBe16, hlen]
  rw [if_neg (by simp), List.take_left]

end Attribute

theorem readAttributes_flatMap {attrs : List Attribute} {n : ℕ}
    (hsize : (attrs.flatMap Attribute.serialize).length ≤ 65535)
    (hn : (attrs.flatMap Attribute.serialize).length ≤ n) :
    readAttributes n (attrs.flatMap Attribute.serialize) = attrs := by
  induction attrs generalizing n with
  | nil => cases n <;> rfl
  | cons attr attrs ih =>
    rw [List.flatMap_cons, List.length_append] at hsize hn
    have hlen := attr.length_serialize
    obtain ⟨n, rfl⟩ : ∃ k, n = k + 1 := ⟨n - 1, by omega⟩
    rw [List.flatMap_cons, readAttributes, Attribute.deserialize_append (by omega)]
    simp only [List.drop_left]
    rw [ih (by omega) (by omega)]

namespace Message

/-! ### The header -/

theorem hton16_toNat (x : UInt16) : (hton16 x).toNat = x.toNat % 256 * 256 + x.toNat / 256 := by
  have hx := x.toNat_lt
  rw [hton16, UInt16.toNat_or, UInt16.toNat_shiftLeft, UInt16.toNat_shiftRight,
    show (8 : UInt16).toNat % 16 = 8 from rfl, Nat.shiftLeft_eq, Nat.shiftRight_eq_div_pow]
  have hlow : x.toNat * 2 ^ 8 % 2 ^ 16 = x.toNat % 256 * 2 ^ 8 := by omega
  rw [hlow, or_eq_add (by omega)]
  rfl

/-- The mask clears no bit of a type whose low byte has none above the lower six. -/
theorem typeBytes_eq {type : BitVec 14} (h : type.toNat % 256 < 0x40) :
    typeBytes type = toBe16 (UInt16.ofNat type.toNat) := by
  have ht := type.isLt
  have hsmall : (UInt16.ofNat type.toNat).toNat = type.toNat := toNat_ofNat16 (by omega)
  have hmask : (hton16 (UInt16.ofNat type.toNat) &&& 0x3FFF).toNat =
      type.toNat % 256 * 256 + type.toNat / 256 := by
    rw [UInt16.toNat_and, hton16_toNat, hsmall,
      show (0x3FFF : UInt16).toNat = 2 ^ 14 - 1 from rfl, Nat.and_two_pow_sub_one_eq_mod]
    omega
  simp only [typeBytes, toBe16, List.cons.injEq, and_true, ← UInt8.toNat_inj,
    UInt16.toNat_toUInt8, UInt16.toNat_shiftRight, hmask, hsmall,
    show (8 : UInt16).toNat % 16 = 8 from rfl, Nat.shiftRight_eq_div_pow, Nat.reducePow]
  have hhigh : type.toNat / 256 < 64 := by omega
  have hhigh' : type.toNat / 256 % 256 = type.toNat / 256 := by omega
  rw [hhigh']
  generalize type.toNat % 256 = low at h
  generalize type.toNat / 256 = high at hhigh
  constructor <;> omega

/-- A header and what follows it, as `deserialize` takes them apart. -/
theorem deserialize_header {H : Hash} {type : BitVec 14} (htype : type.toNat % 256 < 0x40)
    {len : UInt16} {cookie : UInt32} {tid : Vector UInt8 12} {rest : List UInt8}
    (buffer : List UInt8) (hlen : len.toNat ≤ rest.length)
    (hbuffer : buffer = typeBytes type ++ toBe16 len ++ toBe32 cookie ++ tid.toList ++ rest) :
    deserialize H buffer =
      some (⟨type, cookie, tid, readAttributes rest.length rest⟩,
        calculateFingerprint H (buffer.take (buffer.length - 8))) := by
  have ht := type.isLt
  have htypeBack : BitVec.ofNat 14 (UInt16.ofNat type.toNat).toNat = type := by
    rw [toNat_ofNat16 (by omega), BitVec.ofNat_toNat, BitVec.setWidth_eq]
  obtain ⟨⟨l⟩, hl⟩ := tid
  match l, hl with
  | [t₀, t₁, t₂, t₃, t₄, t₅, t₆, t₇, t₈, t₉, t₁₀, t₁₁], _ =>
    simp only [typeBytes_eq htype, toBe16, toBe32, Vector.toList_mk, List.cons_append,
      List.nil_append] at hbuffer
    rw [hbuffer, deserialize]
    simp only [be16_toBe16, be32_toBe32, htypeBack]
    rw [if_neg (by omega)]

/-- A header of the message's own fields before a body of some length. -/
def framed (msg : Message) (len : ℕ) (body : List UInt8) : List UInt8 :=
  typeBytes msg.type ++ toBe16 (UInt16.ofNat len) ++ toBe32 msg.magicCookie ++
    msg.transactionId.toList ++ body

theorem length_framed (msg : Message) (len : ℕ) (body : List UInt8) :
    (msg.framed len body).length = 20 + body.length := by
  simp [framed, typeBytes]
  omega

theorem framed_append (msg : Message) (len : ℕ) (body rest : List UInt8) :
    msg.framed len body ++ rest = msg.framed len (body ++ rest) := by
  simp [framed]

/-- The length field is the third and fourth byte. -/
theorem framed_set (msg : Message) (len len' : ℕ) (body : List UInt8) :
    ((msg.framed len body).set 2 (UInt16.ofNat len' >>> 8).toUInt8).set 3
      (UInt16.ofNat len').toUInt8 = msg.framed len' body := rfl

theorem serializeWith_eq (msg : Message) (placeholder : ℕ) :
    msg.serializeWith placeholder =
      msg.framed ((msg.attributes.flatMap Attribute.serialize).length + placeholder)
        (msg.attributes.flatMap Attribute.serialize) := rfl

/-! ### What `serialize` adds -/

/-- The code over the header, with a length that counts the attribute, and the
attributes of the message. -/
def integrity (H : Hash) (msg : Message) (key : List UInt8) : Attribute :=
  ⟨Attribute.messageIntegrity, (H.hmac (msg.serializeWith 24) key).toList⟩

/-- The part that the fingerprint covers; the length counts all that follows. -/
def covered (H : Hash) (msg : Message) (key : List UInt8) : List UInt8 :=
  msg.framed ((msg.attributes.flatMap Attribute.serialize).length + 32)
    ((msg.attributes ++ [integrity H msg key]).flatMap Attribute.serialize)

/-- The message with the two attributes that `serialize` adds. -/
def signed (H : Hash) (msg : Message) (key : List UInt8) : Message :=
  { msg with
    attributes := msg.attributes ++ [integrity H msg key,
      ⟨Attribute.fingerprint, toBe32 (calculateFingerprint H (covered H msg key))⟩] }

theorem length_integrity (H : Hash) (msg : Message) (key : List UInt8) :
    (integrity H msg key).serialize.length = 24 := by
  rw [Attribute.length_serialize]
  simp [integrity, Attribute.padding]

theorem length_fingerprint (value : UInt32) :
    (Attribute.serialize ⟨Attribute.fingerprint, toBe32 value⟩).length = 8 := by
  rw [Attribute.length_serialize]
  simp [Attribute.padding]

theorem length_signed (H : Hash) (msg : Message) (key : List UInt8) :
    ((signed H msg key).attributes.flatMap Attribute.serialize).length =
      (msg.attributes.flatMap Attribute.serialize).length + 32 := by
  simp only [signed, List.flatMap_append, List.flatMap_cons, List.flatMap_nil, List.append_nil,
    List.length_append, length_integrity,
    length_fingerprint]

/-- `serialize` writes the message with the two attributes, and leaves the password
as `sasl_prep` does. -/
theorem serialize_eq (H : Hash) (msg : Message) (password : List UInt8) :
    msg.serialize H password =
      (msg.framed ((msg.attributes.flatMap Attribute.serialize).length + 32)
        ((signed H msg (saslPrep password)).attributes.flatMap Attribute.serialize),
        saslPrep password) := by
  have hmi := length_integrity H msg (saslPrep password)
  have hcovered : (msg.attributes.flatMap Attribute.serialize) ++
      (integrity H msg (saslPrep password)).serialize =
        (msg.attributes ++ [integrity H msg (saslPrep password)]).flatMap Attribute.serialize := by
    simp
  simp only [serialize, createShortTurn]
  rw [← integrity, serializeWith_eq, framed_append, framed_set, length_framed, List.length_append,
    hmi, hcovered]
  have hlen : 20 + ((msg.attributes.flatMap Attribute.serialize).length + 24) - 20 + 8 =
      (msg.attributes.flatMap Attribute.serialize).length + 32 := by omega
  rw [hlen, ← covered, covered, framed_append]
  simp [signed, covered]

/-- Reading the bytes of `serialize` gives the message with the two attributes and the
fingerprint that was written. -/
theorem deserialize_serialize {H : Hash} {msg : Message} (password : List UInt8)
    (htype : msg.type.toNat % 256 < 0x40)
    (hsize : (msg.attributes.flatMap Attribute.serialize).length + 32 ≤ 65535) :
    deserialize H (msg.serialize H password).1 =
      some (signed H msg (saslPrep password),
        calculateFingerprint H (covered H msg (saslPrep password))) := by
  set key := saslPrep password with hkey
  have hlen := length_signed H msg key
  have hread : readAttributes _ ((signed H msg key).attributes.flatMap Attribute.serialize) =
      (signed H msg key).attributes :=
    readAttributes_flatMap (by omega) le_rfl
  have hcovered : (msg.serialize H password).1 =
      covered H msg key ++ Attribute.serialize
        ⟨Attribute.fingerprint, toBe32 (calculateFingerprint H (covered H msg key))⟩ := by
    rw [serialize_eq, ← hkey, covered, framed_append]
    simp [signed, covered]
  have hfront : (msg.serialize H password).1.take ((msg.serialize H password).1.length - 8) =
      covered H msg key := by
    rw [hcovered, List.length_append, length_fingerprint, Nat.add_sub_cancel, List.take_left]
  have hnat : (UInt16.ofNat ((msg.attributes.flatMap Attribute.serialize).length + 32)).toNat =
      (msg.attributes.flatMap Attribute.serialize).length + 32 := toNat_ofNat16 hsize
  rw [deserialize_header htype (msg.serialize H password).1 (by rw [hnat, hlen])
    (by rw [serialize_eq]; rfl), hfront, hread]
  rfl

/-- The verifier of a message that was read back covers what the writer covered. -/
theorem calculateMessageIntegrity_signed (H : Hash) (msg : Message) (key : List UInt8)
    (password : List UInt8) :
    calculateMessageIntegrity H (signed H msg key) password =
      some (createShortTurn H (msg.serializeWith 24) password) := by
  have hmi := length_integrity H msg key
  have hdrop : (signed H msg key).attributes.dropLast =
      msg.attributes ++ [integrity H msg key] := by
    rw [signed]
    simp [List.dropLast_append_of_ne_nil]
  have hbody : (msg.attributes ++ [integrity H msg key]).flatMap Attribute.serialize =
      msg.attributes.flatMap Attribute.serialize ++ (integrity H msg key).serialize := by
    simp
  have hs : serializeWith { signed H msg key with
      attributes := (signed H msg key).attributes.dropLast } 0 =
        msg.serializeWith 24 ++ (integrity H msg key).serialize := by
    rw [serializeWith_eq, serializeWith_eq, framed_append, hdrop, hbody, List.length_append, hmi]
    rfl
  have hne : (signed H msg key).attributes ≠ [] := by simp [signed]
  rw [calculateMessageIntegrity, if_neg hne]
  simp only [hs, List.length_append, hmi]
  rw [if_neg (by omega), Nat.add_sub_cancel, List.take_left]

/-! ### The round trip -/

/-- What a message sent with `password` and read back must be like; the verifier uses
the string that `serialize` was given. -/
def RoundTrips (H : Hash) (msg : Message) (password : List UInt8) : Prop :=
  let (data, password) := msg.serialize H password
  ∃ read fingerprint code value,
    deserialize H data = some (read, fingerprint) ∧
    read.type = msg.type ∧ read.transactionId = msg.transactionId ∧
    read.attributes = msg.attributes ++
      [⟨Attribute.messageIntegrity, code⟩, ⟨Attribute.fingerprint, value⟩] ∧
    (read.calculateMessageIntegrity H password).map (·.1.toList) = some code ∧
    value = toBe32 fingerprint ∧
    (data.drop 2).take 2 = toBe16 (UInt16.ofNat (data.length - 20)) ∧ data.length - 20 ≤ 65535

theorem roundTrips_iff {H : Hash} {msg : Message} {password : List UInt8}
    (htype : msg.type.toNat % 256 < 0x40)
    (hsize : (msg.attributes.flatMap Attribute.serialize).length + 32 ≤ 65535) :
    RoundTrips H msg password ↔
      H.hmac (msg.serializeWith 24) (saslPrep (saslPrep password)) =
        H.hmac (msg.serializeWith 24) (saslPrep password) := by
  have hread := deserialize_serialize (H := H) password htype hsize
  have hpassword : (msg.serialize H password).2 = saslPrep password := by rw [serialize_eq]
  have hdata := congrArg Prod.fst (serialize_eq H msg password)
  have hlen : (msg.serialize H password).1.length - 20 =
      (msg.attributes.flatMap Attribute.serialize).length + 32 := by
    rw [hdata, length_framed, length_signed]
    omega
  have hmi := calculateMessageIntegrity_signed H msg (saslPrep password)
  simp only [RoundTrips, hpassword, hread, hlen]
  constructor
  · rintro ⟨_, _, code, value, hsome, -, -, hattrs, hcode, -⟩
    obtain ⟨rfl, rfl⟩ := Prod.mk.inj (Option.some.inj hsome)
    rw [hmi, Option.map_some, createShortTurn] at hcode
    have hlast := List.append_cancel_left hattrs
    have hmi' : (integrity H msg (saslPrep password)).value = code :=
      congrArg Attribute.value (List.cons.inj hlast).1
    rw [integrity, ← Option.some.inj hcode] at hmi'
    exact (Vector.toList_inj.mp hmi').symm
  · intro hkeys
    refine ⟨_, _, _, _, rfl, rfl, rfl, rfl, ?_, rfl, ?_, hsize⟩
    · rw [hmi, Option.map_some, createShortTurn, hkeys]
    · rw [hdata]
      rfl

/-- A verifier with its own copy of the password always agrees. -/
theorem calculateMessageIntegrity_copy (H : Hash) (msg : Message) (password : List UInt8) :
    calculateMessageIntegrity H (signed H msg (saslPrep password)) password =
      some (H.hmac (msg.serializeWith 24) (saslPrep password), saslPrep password) :=
  calculateMessageIntegrity_signed H msg _ password

/-- Whatever HMAC-SHA1 and CRC32 are, the round trip holds exactly if `sasl_prep` has
nothing left to do for a password that it has prepared. -/
theorem stun_round_trip_iff (msg : Message) (password : List UInt8)
    (htype : msg.type.toNat % 256 < 0x40)
    (hsize : (msg.attributes.flatMap Attribute.serialize).length + 32 ≤ 65535) :
    (∀ H, RoundTrips H msg password) ↔ saslPrep (saslPrep password) = saslPrep password := by
  constructor
  · intro h
    -- a hash that tells the prepared password from all others
    let H : Hash := ⟨fun _ key =>
      if key = saslPrep password then Vector.replicate 20 0 else Vector.replicate 20 1, fun _ => 0⟩
    have hkeys := (roundTrips_iff htype hsize).mp (h H)
    by_contra hne
    simp only [H, if_neg hne] at hkeys
    exact absurd hkeys (by decide)
  · intro h H
    exact (roundTrips_iff htype hsize).mpr (by rw [h])

/-- A binding request under a password of letters. -/
theorem stun_round_trip_letters :
    (∀ H, RoundTrips H ⟨bindingRequest, 0x2112A442, Vector.replicate 12 7,
        [⟨Attribute.priority, [1, 2, 3, 4]⟩]⟩ [0x61, 0x62, 0x63]) ↔
      saslPrep (saslPrep [0x61, 0x62, 0x63]) = saslPrep [0x61, 0x62, 0x63] :=
  stun_round_trip_iff ⟨bindingRequest, 0x2112A442, Vector.replicate 12 7,
    [⟨Attribute.priority, [1, 2, 3, 4]⟩]⟩ [0x61, 0x62, 0x63] (by decide) (by decide)

/-- Two soft hyphens, a letter and a delete character: `sasl_prep` stops at the last,
and only its second pass drops the hyphen that the first has left. -/
theorem prepared_password_changes :
    saslPrep [0xAD, 0xAD, 0x61, 0x7F] = [0x61, 0xAD, 0x61, 0x7F] ∧
      saslPrep [0x61, 0xAD, 0x61, 0x7F] = [0x61, 0x61, 0x61, 0x7F] ∧
      ¬RoundTrips ⟨fun _ key => Vector.replicate 20 (key.getD 1 0), fun _ => 0⟩
        ⟨bindingRequest, 0x2112A442, Vector.replicate 12 7, []⟩ [0xAD, 0xAD, 0x61, 0x7F] := by
  refine ⟨by decide, by decide, fun h => ?_⟩
  exact absurd ((roundTrips_iff (by decide) (by decide)).mp h) (by decide)

end Message

end CxxDeps.Stun
