import CxxDeps.Sys.Decimal
import CxxDeps.Sys.Split
import CxxDeps.Library.Bits

/-! `hypertext::uri`: the parts of an address, its text, and the escapes of the values of a
query. A string can be read up to its terminator; a read beyond that, or of a part that is
not there, is `none`. `from_hex` returns what its variable happened to hold, `y`, for a
character that is neither digit nor letter. -/

namespace CxxDeps.Hypertext

open Sys

/-! ### Escapes -/

/-- `isalnum` of the C locale. -/
def isAlnum (c : UInt8) : Bool :=
  (0x30 ≤ c && c ≤ 0x39) || (0x41 ≤ c && c ≤ 0x5A) || (0x61 ≤ c && c ≤ 0x7A)

namespace Uri

def toHex (x : UInt8) : UInt8 := if x > 9 then x + 55 else x + 48

def fromHex (y x : UInt8) : UInt8 :=
  if 0x41 ≤ x && x ≤ 0x5A then x - 0x41 + 10
  else if 0x61 ≤ x && x ≤ 0x7A then x - 0x61 + 10
  else if 0x30 ≤ x && x ≤ 0x39 then x - 0x30
  else y

/-- What `url_encode` writes for a character. -/
def encodeChar (c : UInt8) : Text :=
  if isAlnum c || c == 0x2D || c == 0x5F || c == 0x2E || c == 0x7E then [c]
  else if c == 0x20 then [0x2B]
  else [0x25, toHex (c >>> 4), toHex (c % 16)]

def urlEncode (str : Text) : Text := str.flatMap encodeChar

def urlDecode (y : UInt8) : Text → Option Text
  | [] => some []
  | c :: str =>
    if c = 0x2B then (urlDecode y str).map (0x20 :: ·)
    else if c = 0x25 then
      match str with
      -- the second character read is behind the terminator
      | [] => none
      | [high] => some [fromHex y high * 16 + fromHex y 0]
      | high :: low :: str => (urlDecode y str).map ((fromHex y high * 16 + fromHex y low) :: ·)
    else (urlDecode y str).map (c :: ·)

end Uri

/-! ### Addresses -/

structure Uri where
  protocal : Text := []
  host : Text := []
  port : ℤ := 0
  isDefaultPort : Bool := true
  path : Text := []
  args : List (Text × Text) := []
  raw : Text := []
  deriving DecidableEq, Repr

namespace Uri

/-- `uri::reset`. -/
def reset (u : Uri) : Uri := { raw := u.raw, isDefaultPort := false }

/-- A round of `parse_query_string`. -/
def addArg (y : UInt8) (args : List (Text × Text)) (item : Text) : Option (List (Text × Text)) :=
  match split item (text "=") (some 2) true with
  | key :: value :: _ => (urlDecode y value).map fun v => args ++ [(key, v)]
  | _ => some args

def parseQueryString (y : UInt8) (s : Text) : Option (List (Text × Text)) :=
  (split s (text "&") none true).foldlM (addArg y) []

/-- The host, the port and the path, from what is in front of the query. -/
def parseHostPath (u : Uri) (hostPath : Text) : Option Uri :=
  if hostPath.head? = some 0x2F then some { u with path := hostPath }
  else
    match split hostPath (text "/") (some 2) true with
    | [] => none
    | hostPort :: path =>
      match split hostPort (text ":") (some 2) true with
      | [] => none
      | host :: port => some { u with
          path := path.headD []
          host
          port := port.head?.elim 0 fun p => toInt32 (strtol 10 p)
          isDefaultPort := port.isEmpty }

/-- What is behind the scheme. -/
def parsePathQuery (y : UInt8) (u : Uri) (pathQuery : Text) : Option Uri :=
  match split pathQuery (text "?") (some 2) true with
  | [] => none
  | hostPath :: query =>
    (query.head?.elim (some []) (parseQueryString y)).bind fun args =>
      { u with args }.parseHostPath hostPath

/-- `uri::parse`, which returns true when it returns. -/
def parse (y : UInt8) (s : Text) : Option Uri :=
  let u := reset { raw := s }
  match split s (text "://") (some 2) true with
  | [] => some u
  | [pathQuery] => parsePathQuery y u pathQuery
  | protocal :: pathQuery :: _ => parsePathQuery y { u with protocal } pathQuery

/-- An argument and the separator behind it. -/
def argText (arg : Text × Text) : Text := arg.1 ++ text "=" ++ urlEncode arg.2 ++ text "&"

/-- `uri::to_query_string`: the last separator is written over with a zero. -/
def toQueryString (u : Uri) : Text :=
  let ss := u.args.flatMap argText
  if u.args ≠ [] then ss.dropLast ++ [0] else ss

/-- `uri::to_string`. -/
def toText (u : Uri) : Text :=
  u.protocal ++ text "://" ++ u.host ++
  (if u.isDefaultPort then [] else text ":" ++ decimal u.port) ++
  (if u.path ≠ [] then (if u.path.head? ≠ some 0x2F then text "/" else []) ++ u.path else []) ++
  if u.args ≠ [] then text "?" ++ u.toQueryString else []

/-- `uri::to_path_string`. -/
def toPathText (u : Uri) : Text :=
  u.path ++ if u.args ≠ [] then text "?" ++ u.toQueryString else []

end Uri

namespace Uri

/-! ### What the escapes are read as -/

theorem fromHex_eq {y x : UInt8} (h : isAlnum x = true) : fromHex y x = fromHex 0 x := by
  unfold fromHex
  split_ifs <;> simp_all [isAlnum]

/-- The digits of a byte. -/
theorem fromHex_toHex (y c : UInt8) :
    fromHex y (toHex (c >>> 4)) * 16 + fromHex y (toHex (c % 16)) = c := by
  have h : isAlnum (toHex (c >>> 4)) = true ∧ isAlnum (toHex (c % 16)) = true ∧
      fromHex 0 (toHex (c >>> 4)) * 16 + fromHex 0 (toHex (c % 16)) = c := by
    revert c
    exact Library.forall_uint8 (by decide +kernel)
  rw [fromHex_eq h.1, fromHex_eq h.2.1]
  exact h.2.2

theorem encodeChar_plain (c : UInt8)
    (h : (isAlnum c || c == 0x2D || c == 0x5F || c == 0x2E || c == 0x7E) = true) :
    c ≠ 0x2B ∧ c ≠ 0x25 := by
  revert c
  exact Library.forall_uint8 (by decide +kernel)

theorem urlDecode_cons (y : UInt8) {c : UInt8} (hc : c ≠ 0x25) (s : Text) :
    urlDecode y (c :: s) = (urlDecode y s).map ((if c = 0x2B then 0x20 else c) :: ·) := by
  rw [urlDecode.eq_def]
  dsimp only
  rw [if_neg hc]
  split_ifs <;> rfl

/-- What was written for a character is read as the character. -/
theorem urlDecode_encodeChar (y c : UInt8) (s : Text) :
    urlDecode y (encodeChar c ++ s) = (urlDecode y s).map (c :: ·) := by
  unfold encodeChar
  split_ifs with hplain hspace
  · obtain ⟨hplus, hpercent⟩ := encodeChar_plain c hplain
    rw [List.singleton_append, urlDecode_cons y hpercent, if_neg hplus]
  · rw [beq_iff_eq.mp hspace, List.singleton_append, urlDecode_cons y (by decide), if_pos rfl]
  · have hne : ¬ (0x25 : UInt8) = 0x2B := by decide
    simp only [List.cons_append, List.nil_append, urlDecode, if_neg hne, if_true, fromHex_toHex]

theorem urlDecode_urlEncode_append (y : UInt8) (v s : Text) :
    urlDecode y (urlEncode v ++ s) = (urlDecode y s).map (v ++ ·) := by
  induction v with
  | nil => simp [urlEncode]
  | cons c v ih =>
    rw [urlEncode, List.flatMap_cons, List.append_assoc, urlDecode_encodeChar]
    rw [← urlEncode, ih, Option.map_map]
    rfl

theorem urlDecode_urlEncode (y : UInt8) (v : Text) : urlDecode y (urlEncode v) = some v := by
  have h := urlDecode_urlEncode_append y v []
  rw [List.append_nil] at h
  rw [h, urlDecode, Option.map_some, List.append_nil]

/-- Every escape has a character behind the percent sign. -/
def escapesEnd : Text → Bool
  | [] => true
  | c :: str =>
    if c = 0x25 then
      match str with
      | [] => false
      | [_] => true
      | _ :: _ :: str => escapesEnd str
    else escapesEnd str

theorem isSome_urlDecode (y : UInt8) (s : Text) : (urlDecode y s).isSome = escapesEnd s := by
  fun_induction escapesEnd s with
  | case1 => simp [urlDecode]
  | case2 => simp [urlDecode]
  | case3 => simp [urlDecode]
  | case4 a b str ih => simp [urlDecode, ih]
  | case5 c str hc ih =>
    rw [urlDecode_cons y hc, Option.isSome_map, ih]

/-- The characters of what is written. -/
def isEncoded (c : UInt8) : Bool :=
  isAlnum c || c == 0x2D || c == 0x5F || c == 0x2E || c == 0x7E || c == 0x2B || c == 0x25

theorem isEncoded_of_mem (v : Text) : ∀ c ∈ urlEncode v, isEncoded c = true := by
  have hchar (d : UInt8) : (encodeChar d).all isEncoded = true := by
    revert d
    exact Library.forall_uint8 (by decide +kernel)
  intro c hc
  obtain ⟨d, -, hd⟩ := List.mem_flatMap.mp hc
  exact List.all_eq_true.mp (hchar d) c hd

theorem notMem_urlEncode {c : UInt8} (hc : isEncoded c = false) (v : Text) : c ∉ urlEncode v := by
  intro h
  rw [isEncoded_of_mem v c h] at hc
  cases hc

/-! ### What a query is read as -/

theorem addArg_eq (y : UInt8) (args : List (Text × Text)) (item : Text) :
    addArg y args item = (addArg y [] item).map (args ++ ·) := by
  unfold addArg
  split
  · rw [Option.map_map]
    rfl
  · simp

theorem foldlM_addArg (y : UInt8) (items : List Text) (args : List (Text × Text)) :
    items.foldlM (addArg y) args = (items.foldlM (addArg y) []).map (args ++ ·) := by
  induction items generalizing args with
  | nil => simp
  | cons item items ih =>
    rw [List.foldlM_cons, List.foldlM_cons, addArg_eq]
    cases addArg y [] item with
    | none => rfl
    | some first =>
      simp only [Option.map_some, Option.bind_eq_bind, Option.bind_some]
      rw [ih, ih first, Option.map_map]
      congr 1
      funext rest
      exact List.append_assoc args first rest

/-- The arguments in front of a separator and those behind it. -/
theorem parseQueryString_sep (y : UInt8) (a b : Text) :
    parseQueryString y (a ++ 0x26 :: b) =
      (parseQueryString y a).bind fun args => (parseQueryString y b).map (args ++ ·) := by
  have hsep : split (a ++ 0x26 :: b) (text "&") none true =
      split a (text "&") none true ++ split b (text "&") none true := split_sep 0x26 a b
  rw [parseQueryString, hsep, List.foldlM_append]
  unfold parseQueryString
  congr 1
  funext args
  exact foldlM_addArg y _ args

/-- A single item. -/
theorem parseQueryString_item (y : UInt8) {item : Text} (hitem : 0x26 ∉ item)
    (hne : item ≠ []) : parseQueryString y item = addArg y [] item := by
  have hsplit : split item (text "&") none true = [item] := split_of_notMem hitem hne
  rw [parseQueryString, hsplit, List.foldlM_cons]
  simp

/-- An item with a key; it is an argument if there is something behind the key. -/
theorem addArg_pair (y : UInt8) {key : Text} (hkey : 0x3D ∉ key) (hne : key ≠ []) (value : Text) :
    addArg y [] (key ++ 0x3D :: value) =
      if value = [] then some [] else (urlDecode y value).map fun v => [(key, v)] := by
  have hsplit : split (key ++ 0x3D :: value) (text "=") (some 2) true =
      key :: keepPart true [] value := split_two_pattern (p := []) hkey hne value
  rw [addArg, hsplit]
  split_ifs with hvalue
  · subst hvalue
    rfl
  · have hkeep : keepPart true [] value = [value] := by simp [keepPart, hvalue]
    rw [hkeep]
    rfl

/-- A key that the separators of a query do not cut. -/
structure PlainKey (key : Text) : Prop where
  ne : key ≠ []
  amp : 0x26 ∉ key
  equal : 0x3D ∉ key

theorem urlEncode_eq_nil {v : Text} : urlEncode v = [] ↔ v = [] := by
  constructor
  · intro h
    have hdecode := urlDecode_urlEncode 0 v
    rw [h] at hdecode
    exact (Option.some.inj hdecode).symm
  · rintro rfl
    rfl

theorem amp_notMem_pair {key : Text} (hkey : 0x26 ∉ key) (v s : Text) (hs : 0x26 ∉ s) :
    0x26 ∉ key ++ 0x3D :: (urlEncode v ++ s) := by
  have hv : 0x26 ∉ urlEncode v := notMem_urlEncode rfl v
  simp [hkey, hv, hs]

theorem argText_eq (a : Text × Text) : argText a = a.1 ++ 0x3D :: (urlEncode a.2 ++ [0x26]) := by
  show a.1 ++ [0x3D] ++ urlEncode a.2 ++ [0x26] = _
  simp

/-- Of the arguments with separators behind them, those with a value. -/
theorem parseQueryString_args (y : UInt8) {args : List (Text × Text)}
    (hkeys : ∀ a ∈ args, PlainKey a.1) (s : Text) :
    parseQueryString y (args.flatMap argText ++ s) =
      (parseQueryString y s).map (args.filter (fun a => a.2 ≠ []) ++ ·) := by
  induction args with
  | nil => simp
  | cons a args ih =>
    obtain ⟨hkey, hargs⟩ := List.forall_mem_cons.mp hkeys
    have hcut : (a :: args).flatMap argText ++ s =
        (a.1 ++ 0x3D :: (urlEncode a.2 ++ [])) ++ 0x26 :: (args.flatMap argText ++ s) := by
      simp [argText_eq]
    have hitem : parseQueryString y (a.1 ++ 0x3D :: (urlEncode a.2 ++ [])) =
        some (if a.2 = [] then [] else [a]) := by
      rw [parseQueryString_item y (amp_notMem_pair hkey.amp a.2 [] List.not_mem_nil) (by simp),
        addArg_pair y hkey.equal hkey.ne, List.append_nil, urlDecode_urlEncode]
      simp only [urlEncode_eq_nil]
      split_ifs <;> rfl
    rw [hcut, parseQueryString_sep, hitem, Option.bind_some, ih hargs, Option.map_map]
    congr 1
    funext rest
    by_cases hvalue : a.2 = [] <;> simp [hvalue]

/-- The item of which the separator is written over has a zero behind its value. -/
theorem parseQueryString_last (y : UInt8) {key : Text} (hkey : PlainKey key) (v : Text) :
    parseQueryString y (key ++ 0x3D :: (urlEncode v ++ [0])) = some [(key, v ++ [0])] := by
  have hzero : urlDecode y [0] = some [0] := rfl
  rw [parseQueryString_item y (amp_notMem_pair hkey.amp v [0] (by decide)) (by simp),
    addArg_pair y hkey.equal hkey.ne, if_neg (by simp), urlDecode_urlEncode_append, hzero]
  rfl

theorem toQueryString_concat {u : Uri} {args : List (Text × Text)} {key v : Text}
    (hargs : u.args = args ++ [(key, v)]) :
    u.toQueryString = args.flatMap argText ++ (key ++ 0x3D :: (urlEncode v ++ [0])) := by
  have hlast : (args ++ [(key, v)]).flatMap argText =
      args.flatMap argText ++ (key ++ 0x3D :: urlEncode v) ++ [0x26] := by
    simp [argText_eq]
  rw [toQueryString, hargs, if_pos (by simp), hlast, List.dropLast_concat]
  simp

/-- The arguments that are read from the query of an address. -/
theorem parseQueryString_toQueryString (y : UInt8) {u : Uri} {args : List (Text × Text)}
    {key v : Text} (hargs : u.args = args ++ [(key, v)]) (hkeys : ∀ a ∈ u.args, PlainKey a.1) :
    parseQueryString y u.toQueryString =
      some (args.filter (fun a => a.2 ≠ []) ++ [(key, v ++ [0])]) := by
  rw [hargs, List.forall_mem_append, List.forall_mem_singleton] at hkeys
  rw [toQueryString_concat hargs, parseQueryString_args y hkeys.1,
    parseQueryString_last y hkeys.2, Option.map_some]

end Uri

end CxxDeps.Hypertext
