import CxxDeps.Sip.Credentials
import CxxDeps.Sys.Split

/-! `challenge::parse`. Where `credentials::parse` reads what follows the scheme, it reads
the scheme: the first seven characters of the text, in which no usual challenge has a
field. -/

namespace CxxDeps.Sip

open Sys

/-- An item of the list, cut at its first `=`. -/
def keyValue (item : Text) : Option (Text × Text) :=
  match split item (text "=") (some 2) true with
  | key :: val :: _ => some (trim key, formatValue (trim val))
  | _ => none

structure ReceivedChallenge where
  realm : Text := []
  domains : List Text := []
  nonce : Text := []
  opaque' : Text := []
  stale : Bool := false
  algorithm : Text := []
  qops : List Text := []
  charset : Text := []
  userhash : Bool := false
  deriving DecidableEq, Repr

namespace ReceivedChallenge

/-- The fields in the order of their comparisons. -/
inductive Key
  | realm
  | domain
  | nonce
  | algorithm
  | stale
  | opaque'
  | qop
  | charset
  | userhash
  deriving DecidableEq, Repr

def Key.all : List Key :=
  [.realm, .domain, .nonce, .algorithm, .stale, .opaque', .qop, .charset, .userhash]

def Key.name : Key → Text
  | .realm => text "realm"
  | .domain => text "domain"
  | .nonce => text "nonce"
  | .algorithm => text "algorithm"
  | .stale => text "stale"
  | .opaque' => text "opaque"
  | .qop => text "qop"
  | .charset => text "charset"
  | .userhash => text "userhash"

/-- One field is set. The loops that lower the case of `stale` and `userhash` run from
one string into another. -/
def assign (val : Text) (chal : ReceivedChallenge) : Key → Except Refusal ReceivedChallenge
  | .realm => .ok { chal with realm := val }
  | .domain => .ok { chal with domains := split val (text " ") none true }
  | .nonce => .ok { chal with nonce := val }
  | .algorithm => .ok { chal with algorithm := val }
  | .stale => .error .undefined
  | .opaque' => .ok { chal with opaque' := val }
  | .qop => .ok { chal with qops := split val (text " ") none true }
  | .charset => .ok { chal with charset := val }
  | .userhash => .error .undefined

/-- One item of the list. -/
def parseItem (chal : ReceivedChallenge) (item : Text) : Except Refusal ReceivedChallenge :=
  match keyValue item with
  | some (key, val) =>
    match Key.all.find? (·.name = key) with
    | some field => chal.assign val field
    | none => .ok chal
  | none => .ok chal

/-- `parse`: of the text only `substr(0, prefix.size() + 1)` is looked at. -/
def parse (s : Text) : Except Refusal ReceivedChallenge :=
  if s.length < 7 then .error .malformed
  else (split (s.take 7) (text ",") none true).foldlM parseItem {}

end ReceivedChallenge

/-! ### The fields of a list -/

/-- The value of a field in one item. -/
def itemValue (field item : Text) : Option Text :=
  (keyValue item).bind fun kv => if kv.1 = field then some kv.2 else none

/-- The value of a field in the items, where the last one counts. -/
def fieldIn (field : Text) (items : List Text) (start : Text) : Text :=
  items.foldl (fun v item => (itemValue field item).getD v) start

/-- The value of a field in a list with commas. -/
def listField (field s : Text) : Text := fieldIn field (split s (text ",") none true) []

namespace ReceivedChallenge

theorem Key.name_inj : ∀ f ∈ Key.all, ∀ g ∈ Key.all, f.name = g.name → f = g := by decide

theorem Key.mem_all (f : Key) : f ∈ Key.all := by cases f <;> decide

theorem Key.name_eq_iff {f g : Key} : f.name = g.name ↔ f = g :=
  ⟨Key.name_inj f (Key.mem_all f) g (Key.mem_all g), fun h => h ▸ rfl⟩

/-- The fields that the client uses. -/
structure SetBy (item : Text) (chal chal' : ReceivedChallenge) : Prop where
  realm : chal'.realm = (itemValue Key.realm.name item).getD chal.realm
  nonce : chal'.nonce = (itemValue Key.nonce.name item).getD chal.nonce
  algorithm : chal'.algorithm = (itemValue Key.algorithm.name item).getD chal.algorithm

theorem setBy_of_parseItem {chal chal' : ReceivedChallenge} {item : Text}
    (h : chal.parseItem item = .ok chal') : SetBy item chal chal' := by
  unfold parseItem at h
  cases hkv : keyValue item with
  | none =>
    have hvalue (field : Text) : itemValue field item = none := by rw [itemValue, hkv]; rfl
    rw [hkv] at h
    cases h
    exact ⟨by rw [hvalue]; rfl, by rw [hvalue]; rfl, by rw [hvalue]; rfl⟩
  | some kv =>
    obtain ⟨key, val⟩ := kv
    have hvalue (field : Text) : itemValue field item = if key = field then some val else none := by
      rw [itemValue, hkv]; rfl
    rw [hkv] at h
    dsimp only at h
    cases hfind : Key.all.find? (·.name = key) with
    | none =>
      have hvalue' (g : Key) : itemValue g.name item = none := by
        have hno := List.find?_eq_none.mp hfind g (Key.mem_all g)
        rw [hvalue, if_neg fun hkey => hno (by simp [hkey])]
      rw [hfind] at h
      cases h
      exact ⟨by rw [hvalue']; rfl, by rw [hvalue']; rfl, by rw [hvalue']; rfl⟩
    | some f =>
      have hkey : f.name = key := by simpa using List.find?_some hfind
      have hvalue' (g : Key) : itemValue g.name item = if f = g then some val else none := by
        rw [hvalue, ← hkey]
        exact if_congr Key.name_eq_iff rfl rfl
      rw [hfind] at h
      cases f <;> cases h <;>
        exact ⟨by rw [hvalue']; rfl, by rw [hvalue']; rfl, by rw [hvalue']; rfl⟩

theorem fields_of_foldlM {items : List Text} {chal chal' : ReceivedChallenge}
    (h : items.foldlM parseItem chal = .ok chal') :
    chal'.realm = fieldIn (text "realm") items chal.realm ∧
      chal'.nonce = fieldIn (text "nonce") items chal.nonce ∧
      chal'.algorithm = fieldIn (text "algorithm") items chal.algorithm := by
  induction items generalizing chal with
  | nil =>
    cases h
    exact ⟨rfl, rfl, rfl⟩
  | cons item items ih =>
    rw [List.foldlM_cons] at h
    cases hitem : chal.parseItem item with
    | error e =>
      rw [hitem] at h
      cases h
    | ok c =>
      rw [hitem] at h
      have hset := setBy_of_parseItem hitem
      obtain ⟨hr, hn, ha⟩ := ih h
      exact ⟨by rw [hr, hset.realm]; rfl, by rw [hn, hset.nonce]; rfl,
        by rw [ha, hset.algorithm]; rfl⟩

end ReceivedChallenge

/-! ### What fits into seven characters -/

theorem length_keyValue {item : Text} {kv : Text × Text} (h : keyValue item = some kv) :
    kv.1.length ≤ item.length := by
  unfold keyValue at h
  split at h
  · next key val rest hsplit =>
    cases h
    have hkey : key.length ≤ item.length :=
      length_le_of_mem_split (hsplit ▸ List.mem_cons_self)
    exact Nat.le_trans (length_trim_le key) hkey
  · cases h

/-- A field whose name is longer than the list is not in it. -/
theorem listField_of_short {field s : Text} (h : s.length < field.length) :
    listField field s = [] := by
  have hitem : ∀ item ∈ split s (text ",") none true, itemValue field item = none := by
    intro item hmem
    have hlen := length_le_of_mem_split hmem
    unfold itemValue
    cases hkv : keyValue item with
    | none => rfl
    | some kv =>
      have hkey := length_keyValue hkv
      exact if_neg fun heq => by rw [heq] at hkey; omega
  unfold listField
  generalize split s (text ",") none true = items at hitem ⊢
  induction items with
  | nil => rfl
  | cons item items ih =>
    rw [fieldIn, List.foldl_cons, hitem item List.mem_cons_self]
    exact ih fun i hi => hitem i (List.mem_cons_of_mem item hi)

/-- A challenge that is read has the fields of the first seven characters, and no
algorithm. -/
theorem ReceivedChallenge.parse_eq_ok {s : Text} {chal : ReceivedChallenge}
    (h : ReceivedChallenge.parse s = .ok chal) :
    chal.realm = listField (text "realm") (s.take 7) ∧
      chal.nonce = listField (text "nonce") (s.take 7) ∧ chal.algorithm = [] := by
  unfold ReceivedChallenge.parse at h
  split at h
  · cases h
  obtain ⟨hr, hn, ha⟩ := ReceivedChallenge.fields_of_foldlM h
  refine ⟨hr, hn, ha.trans (listField_of_short ?_)⟩
  have hnine : (text "algorithm").length = 9 := by decide
  rw [hnine, List.length_take]
  omega

end CxxDeps.Sip
