import CxxDeps.Sys.StringUtil

/-! `credentials`: the answer of a client to a challenge. The hash functions are a
parameter. -/

namespace CxxDeps.Sip

open Sys

structure Credentials where
  username : Text := []
  realm : Text := []
  nonce : Text := []
  uri : Text := []
  response : Text := []
  algorithm : Text := []
  cnonce : Text := []
  opaque' : Text := []
  qop : Text := []
  nc : ℤ := 0
  userhash : Bool := false
  deriving DecidableEq, Repr

/-- `format_value`: one quote is taken off each end. -/
def formatValue (s : Text) : Text :=
  let s := if s.getLast? == some 0x22 then s.dropLast else s
  if s.head? == some 0x22 then s.drop 1 else s

/-- How a text is refused, or that reading it is undefined behaviour. -/
inductive Refusal
  | malformed
  | undefined
  deriving DecidableEq, Repr

/-- The fields that `parse` reads. -/
inductive Field
  | username
  | realm
  | nonce
  | uri
  | response
  | algorithm
  | cnonce
  | opaque'
  | qop
  | nc
  | userhash

def Field.ofKey (key : Text) : Option Field :=
  if key = text "username" then some username
  else if key = text "realm" then some realm
  else if key = text "nonce" then some nonce
  else if key = text "uri" then some uri
  else if key = text "response" then some response
  else if key = text "algorithm" then some algorithm
  else if key = text "cnonce" then some cnonce
  else if key = text "opaque" then some opaque'
  else if key = text "qop" then some qop
  else if key = text "nc" then some nc
  else if key = text "userhash" then some userhash
  else none

/-- One field is set. The loop that lowers the case of `userhash` runs from one string
into another. -/
def Credentials.assign (val : Text) (cred : Credentials) : Field → Except Refusal Credentials
  | .username => .ok { cred with username := val }
  | .realm => .ok { cred with realm := val }
  | .nonce => .ok { cred with nonce := val }
  | .uri => .ok { cred with uri := val }
  | .response => .ok { cred with response := val }
  | .algorithm => .ok { cred with algorithm := val }
  | .cnonce => .ok { cred with cnonce := val }
  | .opaque' => .ok { cred with opaque' := val }
  | .qop => .ok { cred with qop := val }
  | .nc => .ok { cred with nc := toInt32 (strtol 16 val) }
  | .userhash => .error .undefined

/-- One item of the list. -/
def Credentials.parseItem (cred : Credentials) (item : Text) : Except Refusal Credentials :=
  match split item (text "=") (some 2) true with
  | key :: val :: _ =>
    match Field.ofKey (trim key) with
    | some field => cred.assign (formatValue (trim val)) field
    | none => .ok cred
  | _ => .ok cred

/-- The scheme `Digest` is skipped unread. -/
def Credentials.parse (s : Text) : Except Refusal Credentials :=
  if s.length < 7 then .error .malformed
  else (split (s.drop 7) (text ",") none true).foldlM Credentials.parseItem {}

/-! ### The digest -/

inductive Algorithm
  | md5
  | sha256
  | sha512
  | sha512_256
  deriving DecidableEq, Repr

/-- The algorithms that `digest` knows. -/
def Algorithm.ofName (name : Text) : Option Algorithm :=
  if name = [] ∨ name = text "MD5" then some md5
  else if name = text "SHA-256" then some sha256
  else if name = text "SHA-512" then some sha512
  else if name = text "SHA-512-256" then some sha512_256
  else none

def hexDigit (n : UInt8) : UInt8 := if n < 10 then 0x30 + n else 0x57 + n

/-- Lower-case hexadecimal digits. -/
def hex (s : Text) : Text :=
  s.flatMap fun (c : UInt8) => [hexDigit (c >>> 4), hexDigit (c &&& 15)]

/-- A 32-bit integer in eight digits. -/
def hex32 (n : ℤ) : Text :=
  let n := UInt32.ofInt n
  hex [(n >>> 24).toUInt8, (n >>> 16).toUInt8, (n >>> 8).toUInt8, n.toUInt8]

/-- `:` between the parts. -/
def colons : List Text → Text
  | [] => []
  | [s] => s
  | s :: ss => s ++ text ":" ++ colons ss

section

variable (hash : Algorithm → Text → Text)

/-- `hashf`. -/
def hashf (md : Algorithm) (s : Text) : Text := hex (hash md s)

/-- `digest`, where `random` is the client nonce to use if there is none. The result
is empty for an unknown algorithm and for quality of protection it does not know. -/
def Credentials.digest (method password : Text) (qops : Option (List Text)) (body random : Text)
    (cred : Credentials) : Credentials × Text :=
  match Algorithm.ofName cred.algorithm with
  | none => (cred, [])
  | some md =>
    let username :=
      if cred.userhash then hash md (colons [cred.username, cred.realm]) else cred.username
    let s1 := hashf hash md (colons [username, cred.realm, password])
    match qops with
    | none | some [] =>
      let s2 := hashf hash md (colons [method, cred.uri])
      (cred, hashf hash md (colons [s1, cred.nonce, s2]))
    | some qops =>
      let answer (qop s2 : Text) :=
        let cred := { cred with
          qop
          cnonce := if cred.cnonce.isEmpty then random else cred.cnonce
          nc := if cred.nc = 0 then 1 else cred.nc }
        (cred, hashf hash md (colons [s1, cred.nonce, hex32 cred.nc, cred.cnonce, qop, s2]))
      if text "auth" ∈ qops then
        answer (text "auth") (hashf hash md (colons [method, cred.uri]))
      else if text "auth-int" ∈ qops then
        answer (text "auth-int") (hashf hash md (colons [method, cred.uri, hashf hash md body]))
      else (cred, [])

/-- The response to a challenge that proves knowledge of the password, as RFC 2617
has it without quality of protection. -/
def Credentials.answer (md : Algorithm) (method password : Text) (cred : Credentials) : Text :=
  hashf hash md (colons [
    hashf hash md (colons [cred.username, cred.realm, password]),
    cred.nonce,
    hashf hash md (colons [method, cred.uri])])

/-- The response is right, under an algorithm that is known. -/
def Credentials.Answers (method password : Text) (cred : Credentials) : Prop :=
  ∃ md, Algorithm.ofName cred.algorithm = some md ∧
    cred.response = cred.answer hash md method password

instance (method password : Text) (cred : Credentials) :
    Decidable (cred.Answers hash method password) := by
  unfold Credentials.Answers
  cases Algorithm.ofName cred.algorithm with
  | none => exact .isFalse (by simp)
  | some md =>
    exact decidable_of_iff (cred.response = cred.answer hash md method password) (by simp)

end

/-! ### What the digest is -/

theorem Credentials.parseItem_userhash {cred cred' : Credentials} {item : Text}
    (h : cred.parseItem item = .ok cred') : cred'.userhash = cred.userhash := by
  rw [parseItem] at h
  split at h
  · next key val _ _ =>
    cases hfield : Field.ofKey (trim key) with
    | none =>
      rw [hfield] at h
      exact Except.ok.inj h ▸ rfl
    | some field =>
      rw [hfield] at h
      cases field <;> cases h <;> rfl
  · exact Except.ok.inj h ▸ rfl

/-- Credentials that were read have no hashed user name. -/
theorem Credentials.parse_userhash {s : Text} {cred : Credentials}
    (h : Credentials.parse s = .ok cred) : cred.userhash = false := by
  have hfold (items : List Text) (c : Credentials)
      (hc : items.foldlM Credentials.parseItem c = .ok cred) : cred.userhash = c.userhash := by
    induction items generalizing c with
    | nil => exact (Except.ok.inj hc) ▸ rfl
    | cons item items ih =>
      rw [List.foldlM_cons] at hc
      cases hitem : c.parseItem item with
      | error e =>
        rw [hitem] at hc
        cases hc
      | ok c' =>
        rw [hitem] at hc
        exact (ih c' hc).trans (parseItem_userhash hitem)
  rw [parse] at h
  split at h
  · cases h
  · exact hfold _ _ h

/-- The digest without quality of protection is the answer to the challenge. -/
theorem Credentials.digest_eq_response_iff {hash : Algorithm → Text → Text}
    {method password body random : Text} {cred : Credentials} (hu : cred.userhash = false) :
    cred.response = (cred.digest hash method password none body random).2 ↔
      cred.Answers hash method password ∨
        Algorithm.ofName cred.algorithm = none ∧ cred.response = [] := by
  rw [digest, Answers]
  cases Algorithm.ofName cred.algorithm with
  | none => simp
  | some md => simp [hu, answer]

end CxxDeps.Sip
