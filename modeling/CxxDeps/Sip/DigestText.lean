import CxxDeps.Sip.Challenge
import CxxDeps.Sys.Join

/-! The texts of a challenge and of credentials, and whether `parse` gives their fields back.
Values stand in quotes, but the text is cut at every comma, in quotes or not. -/

namespace CxxDeps.Sip

open Sys

/-- A field as it is written, but for the comma. -/
def fieldText (field : Text × Text) : Text := field.1 ++ text "=\"" ++ field.2 ++ text "\""

/-- A field that is written if it is not empty. -/
def optionalField (key val : Text) : List (Text × Text) :=
  if val.length > 0 then [(key, val)] else []

/-- A field that is written if it is set; a stream writes `true` as `1`. -/
def flagField (key : Text) (val : Bool) : List (Text × Text) :=
  if val then [(key, text "1")] else []

namespace ReceivedChallenge

/-- The fields of `to_string`, in order. -/
def fields (chal : ReceivedChallenge) : List (Text × Text) :=
  [(text "realm", chal.realm)] ++
  (if chal.domains.length > 0 then [(text "domain", join (text " ") chal.domains)] else []) ++
  [(text "nonce", chal.nonce)] ++
  optionalField (text "opaque") chal.opaque' ++
  flagField (text "stale") chal.stale ++
  optionalField (text "algorithm") chal.algorithm ++
  (if chal.qops.length > 0 then [(text "qop", join (text ",") chal.qops)] else []) ++
  optionalField (text "charset") chal.charset ++
  flagField (text "userhash") chal.userhash

/-- `to_string`: every field has a comma behind it, and the last one is cut off. -/
def toText (chal : ReceivedChallenge) : Text :=
  let s := text "Digest" ++ text " " ++ chal.fields.flatMap fun f => fieldText f ++ text ","
  if s.length > 0 then eraseLastOf (text ",") s else s

end ReceivedChallenge

namespace Credentials

/-- The fields of `to_string` in front of the response. The nonce count is not among them. -/
def fields (cred : Credentials) : List (Text × Text) :=
  [(text "username", cred.username), (text "realm", cred.realm), (text "nonce", cred.nonce),
    (text "uri", cred.uri)] ++
  optionalField (text "algorithm") cred.algorithm ++
  optionalField (text "cnonce") cred.cnonce ++
  optionalField (text "opaque") cred.opaque' ++
  optionalField (text "qop") cred.qop ++
  flagField (text "userhash") cred.userhash

/-- `to_string`. -/
def toText (cred : Credentials) : Text :=
  text "Digest" ++ text " " ++ (cred.fields.flatMap fun f => fieldText f ++ text ",") ++
    fieldText (text "response", cred.response)

/-- The values of the fields that are texts. -/
def values (cred : Credentials) : List Text :=
  [cred.username, cred.realm, cred.nonce, cred.uri, cred.response, cred.algorithm, cred.cnonce,
    cred.opaque', cred.qop]

end Credentials

/-! ### A challenge -/

theorem ReceivedChallenge.fields_ne_nil (chal : ReceivedChallenge) : chal.fields ≠ [] := by
  simp [fields]

/-- The last comma is the last byte. -/
theorem ReceivedChallenge.toText_eq (chal : ReceivedChallenge) :
    chal.toText = text "Digest " ++ [0x2C].intercalate (chal.fields.map fieldText) := by
  have hcomma : text "," = [0x2C] := by decide
  have hdigest : text "Digest" ++ text " " = text "Digest " := by decide
  have hwritten : (text "Digest" ++ text " " ++
      chal.fields.flatMap fun f => fieldText f ++ text ",") =
      text "Digest " ++ [0x2C].intercalate (chal.fields.map fieldText) ++ [0x2C] := by
    rw [List.append_assoc (text "Digest "), ← flatMap_append_separator, List.flatMap_map, hdigest,
      hcomma]
    simp [chal.fields_ne_nil]
  have hpos (s : Text) : (s ++ [(0x2C : UInt8)]).length > 0 := by
    rw [List.length_append]
    exact Nat.succ_pos _
  rw [toText, hwritten, if_pos (hpos _), hcomma, eraseLastOf_append (by simp)]

/-- No field is read. -/
theorem ReceivedChallenge.parse_toText (chal : ReceivedChallenge) :
    ReceivedChallenge.parse chal.toText = .ok {} := by
  have hlen : (text "Digest ").length = 7 := by decide
  have hnone : (split (text "Digest ") (text ",") none true).foldlM parseItem {} = .ok {} := by
    decide
  rw [toText_eq, parse, if_neg (by rw [List.length_append]; omega), ← hlen, List.take_left, hnone]

/-! ### Credentials -/

/-- The name of a field, which `split` and `trim` leave as it is. -/
def IsKey (key : Text) : Prop :=
  key ≠ [] ∧ 0x3D ∉ key ∧ 0x2C ∉ key ∧ key.all (!isSpace ·) = true

instance (key : Text) : Decidable (IsKey key) := by unfold IsKey; infer_instance

def Field.name : Field → Text
  | .username => text "username"
  | .realm => text "realm"
  | .nonce => text "nonce"
  | .uri => text "uri"
  | .response => text "response"
  | .algorithm => text "algorithm"
  | .cnonce => text "cnonce"
  | .opaque' => text "opaque"
  | .qop => text "qop"
  | .nc => text "nc"
  | .userhash => text "userhash"

theorem Field.isKey_name (field : Field) : IsKey field.name := by cases field <;> decide

theorem Field.ofKey_name (field : Field) : Field.ofKey field.name = some field := by
  cases field <;> rfl

theorem formatValue_quoted (val : Text) : formatValue (text "\"" ++ val ++ text "\"") = val := by
  have hquote : text "\"" = [0x22] := by decide
  have hlast : (34 :: (val ++ [34])).getLast? = some 34 := List.getLast?_concat (l := 34 :: val)
  have hdrop : (34 :: (val ++ [34])).dropLast = 34 :: val := by
    rw [← List.cons_append, List.dropLast_concat]
  rw [hquote, List.singleton_append, List.cons_append, formatValue]
  simp [hlast, hdrop]

theorem trim_quoted (val : Text) :
    trim (text "\"" ++ val ++ text "\"") = text "\"" ++ val ++ text "\"" := by
  have hquote : text "\"" = [0x22] := by decide
  rw [hquote]
  apply trim_eq_self
  · intro c hc
    cases hc
    rfl
  · intro c hc
    rw [List.getLast?_concat] at hc
    cases hc
    rfl

/-- A field that was written is set to its value. -/
theorem Credentials.parseItem_fieldText (cred : Credentials) (field : Field) (val : Text) :
    cred.parseItem (fieldText (field.name, val)) = cred.assign val field := by
  obtain ⟨hne, heq, -, hall⟩ := field.isKey_name
  have hspace : ∀ c ∈ field.name, isSpace c = false := by simpa using hall
  have hequals : text "=\"" = 0x3D :: text "\"" := by decide
  have hquote : text "\"" = [0x22] := by decide
  have hsplit : split (fieldText (field.name, val)) (text "=") (some 2) true =
      [field.name, text "\"" ++ val ++ text "\""] := by
    have hcut : fieldText (field.name, val) =
        field.name ++ 0x3D :: (text "\"" ++ val ++ text "\"") := by
      simp [fieldText, hequals]
    rw [hcut]
    exact split_two heq hne (by simp [hquote])
  rw [parseItem, hsplit]
  dsimp only
  rw [trim_token hspace, field.ofKey_name, trim_quoted, formatValue_quoted]

theorem Credentials.foldlM_field {cred cred' : Credentials} (field : Field) {val : Text}
    (h : cred.assign val field = .ok cred') (rest : List (Text × Text)) :
    (((field.name, val) :: rest).map fieldText).foldlM parseItem cred =
      (rest.map fieldText).foldlM parseItem cred' := by
  rw [List.map_cons, List.foldlM_cons, parseItem_fieldText, h]
  rfl

/-- A field that is not written has its first value, which is the empty one. -/
theorem Credentials.foldlM_optional {cred cred' : Credentials} (field : Field) {val : Text}
    (h : cred.assign val field = .ok cred') (hempty : val = [] → cred' = cred)
    (rest : List (Text × Text)) :
    ((optionalField field.name val ++ rest).map fieldText).foldlM parseItem cred =
      (rest.map fieldText).foldlM parseItem cred' := by
  unfold optionalField
  split_ifs with hval
  · exact foldlM_field field h rest
  · rw [hempty (List.eq_nil_of_length_eq_zero (by omega)), List.nil_append]

theorem Credentials.foldlM_fields (cred : Credentials) (h : cred.userhash = false) :
    ((cred.fields ++ [(text "response", cred.response)]).map fieldText).foldlM parseItem {} =
      .ok { cred with nc := 0 } := by
  obtain ⟨username, realm, nonce, uri, response, algorithm, cnonce, opaque', qop, nc, userhash⟩ :=
    cred
  obtain rfl : userhash = false := h
  simp only [fields, flagField, List.cons_append, List.nil_append, List.append_assoc,
    Bool.false_eq_true, if_false]
  refine (foldlM_field .username rfl _).trans ?_
  refine (foldlM_field .realm rfl _).trans ?_
  refine (foldlM_field .nonce rfl _).trans ?_
  refine (foldlM_field .uri rfl _).trans ?_
  refine (foldlM_optional .algorithm rfl (by rintro rfl; rfl) _).trans ?_
  refine (foldlM_optional .cnonce rfl (by rintro rfl; rfl) _).trans ?_
  refine (foldlM_optional .opaque' rfl (by rintro rfl; rfl) _).trans ?_
  refine (foldlM_optional .qop rfl (by rintro rfl; rfl) _).trans ?_
  exact foldlM_field .response rfl []

theorem mem_optionalField {key val : Text} {f : Text × Text} (h : f ∈ optionalField key val) :
    f = (key, val) := by
  unfold optionalField at h
  split_ifs at h
  · exact List.mem_singleton.mp h
  · exact absurd h List.not_mem_nil

/-- What is written is a value of the credentials, under its name. -/
theorem Credentials.mem_fields {cred : Credentials} (h : cred.userhash = false)
    {f : Text × Text} (hf : f ∈ cred.fields ++ [(text "response", cred.response)]) :
    (∃ field : Field, f.1 = field.name) ∧ f.2 ∈ cred.values := by
  have hwritten (field : Field) {val : Text} (hval : val ∈ cred.values)
      (hf : f = (field.name, val)) :
      (∃ field : Field, f.1 = field.name) ∧ f.2 ∈ cred.values := by
    rw [hf]
    exact ⟨⟨field, rfl⟩, hval⟩
  simp only [fields, flagField, h, List.mem_append, List.mem_cons, List.not_mem_nil, or_false,
    Bool.false_eq_true, if_false] at hf
  rcases hf with ((((((hf | hf | hf | hf) | hf) | hf) | hf) | hf)) | hf
  · exact hwritten .username (by simp [values]) hf
  · exact hwritten .realm (by simp [values]) hf
  · exact hwritten .nonce (by simp [values]) hf
  · exact hwritten .uri (by simp [values]) hf
  · exact hwritten .algorithm (by simp [values]) (mem_optionalField hf)
  · exact hwritten .cnonce (by simp [values]) (mem_optionalField hf)
  · exact hwritten .opaque' (by simp [values]) (mem_optionalField hf)
  · exact hwritten .qop (by simp [values]) (mem_optionalField hf)
  · exact hwritten .response (by simp [values]) hf

theorem Credentials.toText_eq (cred : Credentials) :
    cred.toText = text "Digest " ++ [0x2C].intercalate
      ((cred.fields ++ [(text "response", cred.response)]).map fieldText) := by
  have hcomma : text "," = [0x2C] := by decide
  have hdigest : text "Digest" ++ text " " = text "Digest " := by decide
  rw [toText, hdigest, hcomma, List.map_append, List.map_singleton, ← flatMap_append_segment,
    List.flatMap_map, List.append_assoc]

/-- Without commas in the values everything is read again but the nonce count. -/
theorem Credentials.parse_toText {cred : Credentials} (huser : cred.userhash = false)
    (h : ∀ val ∈ cred.values, 0x2C ∉ val) :
    Credentials.parse cred.toText = .ok { cred with nc := 0 } := by
  have hlen : (text "Digest ").length = 7 := by decide
  have hcomma : text "," = [0x2C] := by decide
  have hparts : ∀ part ∈ (cred.fields ++ [(text "response", cred.response)]).map fieldText,
      part ≠ [] ∧ 0x2C ∉ part := by
    intro part hpart
    obtain ⟨⟨key, val⟩, hf, rfl⟩ := List.mem_map.mp hpart
    obtain ⟨⟨field, rfl⟩, hval⟩ := mem_fields huser hf
    obtain ⟨hne, -, hkey, -⟩ := field.isKey_name
    have hopen : 0x2C ∉ text "=\"" := by decide
    have hclose : 0x2C ∉ text "\"" := by decide
    refine ⟨by simp [fieldText, hne], ?_⟩
    simp only [fieldText, List.mem_append, not_or]
    exact ⟨⟨⟨hkey, hopen⟩, h val hval⟩, hclose⟩
  rw [parse, toText_eq, if_neg (by rw [List.length_append]; omega), ← hlen, List.drop_left,
    hcomma, split_intercalate hparts]
  exact foldlM_fields cred huser

/-! ### What was read has no commas -/

theorem formatValue_within (s : Text) : formatValue s <:+: s := by
  have hlast (t : Text) : (if t.getLast? == some 0x22 then t.dropLast else t) <:+: t := by
    split_ifs
    · exact (List.dropLast_prefix t).isInfix
    · exact List.infix_refl t
  have hhead (t : Text) : (if t.head? == some 0x22 then t.drop 1 else t) <:+: t := by
    split_ifs
    · exact (List.drop_suffix 1 t).isInfix
    · exact List.infix_refl t
  exact (hhead _).trans (hlast s)

theorem Credentials.values_of_assign {cred cred' : Credentials} {field : Field} {val : Text}
    (hval : 0x2C ∉ val) (h : ∀ v ∈ cred.values, 0x2C ∉ v)
    (hassign : cred.assign val field = .ok cred') : ∀ v ∈ cred'.values, 0x2C ∉ v := by
  simp only [values, List.forall_mem_cons] at h ⊢
  cases field <;> cases hassign <;> simp_all

theorem Credentials.values_of_parseItem {cred cred' : Credentials} {item : Text}
    (hitem : 0x2C ∉ item) (h : ∀ v ∈ cred.values, 0x2C ∉ v)
    (hparse : cred.parseItem item = .ok cred') : ∀ v ∈ cred'.values, 0x2C ∉ v := by
  rw [parseItem] at hparse
  split at hparse
  · next key val rest hsplit =>
    have hwithin : val <:+: item :=
      (part_of_mem_split (hsplit ▸ List.mem_cons_of_mem key List.mem_cons_self)).1
    have hval : 0x2C ∉ formatValue (trim val) := fun hmem =>
      hitem (((formatValue_within _).trans ((trim_within val).trans hwithin)).subset hmem)
    split at hparse
    · exact values_of_assign hval h hparse
    · cases hparse
      exact h
  · cases hparse
    exact h

theorem Credentials.values_of_foldlM {items : List Text} {cred cred' : Credentials}
    (hitems : ∀ item ∈ items, 0x2C ∉ item) (h : ∀ v ∈ cred.values, 0x2C ∉ v)
    (hparse : items.foldlM parseItem cred = .ok cred') : ∀ v ∈ cred'.values, 0x2C ∉ v := by
  induction items generalizing cred with
  | nil =>
    cases hparse
    exact h
  | cons item items ih =>
    obtain ⟨hitem, hitems⟩ := List.forall_mem_cons.mp hitems
    rw [List.foldlM_cons] at hparse
    cases hstep : cred.parseItem item with
    | error e =>
      rw [hstep] at hparse
      cases hparse
    | ok c =>
      rw [hstep] at hparse
      exact ih hitems (values_of_parseItem hitem h hstep) hparse

theorem Credentials.values_of_parse {s : Text} {cred : Credentials}
    (h : Credentials.parse s = .ok cred) : ∀ v ∈ cred.values, 0x2C ∉ v := by
  unfold parse at h
  split_ifs at h
  refine values_of_foldlM ?_ ?_ h
  · intro item hitem
    exact (notMem_of_mem_split hitem).1
  · decide

/-- Written and read, a challenge is what it was only if nothing is in it, and credentials if
they have no nonce count, no hashed user name and no comma in a value. -/
theorem digest_roundTrip_iff (chal : ReceivedChallenge) (cred : Credentials) :
    (ReceivedChallenge.parse chal.toText = .ok chal ↔ chal = {}) ∧
    (Credentials.parse cred.toText = .ok cred ↔
      cred.nc = 0 ∧ cred.userhash = false ∧ ∀ val ∈ cred.values, 0x2C ∉ val) := by
  constructor
  · rw [chal.parse_toText]
    constructor
    · intro h
      exact (Except.ok.inj h).symm
    · intro h
      rw [h]
  · constructor
    · intro h
      have hvalues := Credentials.values_of_parse h
      have huser := Credentials.parse_userhash h
      rw [Credentials.parse_toText huser hvalues] at h
      exact ⟨by rw [← Except.ok.inj h], huser, hvalues⟩
    · rintro ⟨hnc, huser, hvalues⟩
      rw [Credentials.parse_toText huser hvalues, ← hnc]

/-- The realm of a challenge is not read, nor a comma in a list of credentials. -/
theorem digest_roundTrip_fails :
    ¬ (∀ chal : ReceivedChallenge, (∀ f ∈ chal.fields, 0x22 ∉ f.2) →
      ReceivedChallenge.parse chal.toText = .ok chal) ∧
    ¬ ∀ cred : Credentials, (∀ val ∈ cred.values, 0x22 ∉ val) →
      Credentials.parse cred.toText = .ok cred := by
  constructor
  · intro h
    have hread := h { realm := text "r", nonce := text "n" } (by decide)
    rw [ReceivedChallenge.parse_toText] at hread
    exact absurd (Except.ok.inj hread) (by decide)
  · intro h
    have hread := h { username := text "bob", qop := text "auth,auth-int" } (by decide)
    have hvalues := Credentials.values_of_parse hread
    exact hvalues (text "auth,auth-int") (by decide) (by decide)

end CxxDeps.Sip
