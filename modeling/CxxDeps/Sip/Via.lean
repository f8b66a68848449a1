import Mathlib.Data.List.Nodup
import CxxDeps.Sys.Decimal
import CxxDeps.Sys.Join

/-! `sip_via`: the text of a Via header, written and read. Every parameter that is read sets
`rport` back to -1 first, so only the last one can give it. -/

namespace CxxDeps.Sip

open Sys

structure SipVia where
  tcp : Bool := false
  address : Text := []
  port : ℤ := 0
  rport : ℤ := -1
  received : Text := []
  branch : Text := []
  deriving DecidableEq, Repr

namespace SipVia

/-- The part in front of the parameters. -/
def parseHost (part : Text) (via : SipVia) : SipVia :=
  match split part (text ":") (some 2) true with
  | [] => { via with port := 0 }
  | [address] => { via with address, port := 0 }
  | address :: port :: _ => { via with address, port := toInt32 (strtol 10 port) }

/-- A round of the loop over the parameters. -/
def parseParam (via : SipVia) (part : Text) : SipVia :=
  let via := { via with rport := -1 }
  match split part (text "=") (some 2) true with
  | [] => via
  | name :: val =>
    let via :=
      if icasecompare name (text "rport") then
        match val with
        | val :: _ => { via with rport := toInt32 (strtol 10 val) }
        | [] => { via with rport := 0 }
      else via
    if icasecompare name (text "received") then
      match val with
      | val :: _ => { via with received := val }
      | [] => via
    else if icasecompare name (text "branch") then
      match val with
      | val :: _ => { via with branch := val }
      | [] => via
    else via

/-- `parse`, with the members as they were before. -/
def parse (s : Text) (via : SipVia) : Bool × SipVia :=
  match split s (text " ") (some 2) true with
  | protocol :: sent :: _ =>
    let tcp :=
      match split protocol (text "/") none true with
      | _ :: _ :: transport :: _ => icasecompare transport (text "TCP")
      | _ => false
    let via := { via with tcp }
    match split sent (text ";") none true with
    | [] => (false, via)
    | host :: params => (true, params.foldl parseParam (via.parseHost host))
  | _ => (false, via)

/-- `to_string`. -/
def toText (via : SipVia) : Text :=
  text "SIP/2.0" ++ (if via.tcp then text "/TCP" else text "/UDP") ++ text " " ++
  via.address ++
  (if via.port > 0 then text ":" ++ decimal via.port else []) ++
  (if via.branch ≠ [] then text ";branch=" ++ via.branch else []) ++
  (if via.received ≠ [] then text ";received=" ++ via.received else []) ++
  if via.rport > 0 then text ";rport=" ++ decimal via.rport
  else if via.rport = 0 then text ";rport"
  else []

end SipVia

/-! ### The text of a header -/

/-- A parameter, which may have a value. -/
structure ViaParam where
  name : Text
  val : Option Text
  deriving DecidableEq, Repr

namespace ViaParam

def toText (p : ViaParam) : Text :=
  match p.val with
  | none => p.name
  | some val => p.name ++ 0x3D :: val

/-- The name as it is compared. -/
def key (p : ViaParam) : Text := p.name.map toLower

/-- A name and a value that end where the next `=` and the next `;` stand. -/
structure WellFormed (p : ViaParam) : Prop where
  name_ne : p.name ≠ []
  name_equals : 0x3D ∉ p.name
  name_semicolon : 0x3B ∉ p.name
  val_semicolon : ∀ val, p.val = some val → 0x3B ∉ val

theorem wellFormed_of {name : Text} {val : Option Text}
    (hname : name ≠ [] ∧ 0x3D ∉ name ∧ 0x3B ∉ name) (hval : 0x3B ∉ val.getD []) :
    WellFormed ⟨name, val⟩ := by
  refine ⟨hname.1, hname.2.1, hname.2.2, ?_⟩
  rintro v ⟨rfl⟩
  exact hval

/-- What `rport` is: 0 when it has no value. -/
def number (p : ViaParam) : ℤ := toInt32 (strtol 10 (p.val.getD []))

end ViaParam

/-- A header: the protocol, the host, and the parameters in any order. -/
def viaText (protocol host : Text) (params : List ViaParam) : Text :=
  protocol ++ 0x20 :: (host ++ params.flatMap fun p => 0x3B :: p.toText)

/-- The parameters are recovered: each is what the header has, or what it is by default. -/
structure Recovers (params : List ViaParam) (via : SipVia) : Prop where
  branch : ∀ p ∈ params, p.key = text "branch" → via.branch = p.val.getD []
  no_branch : (∀ p ∈ params, p.key ≠ text "branch") → via.branch = []
  received : ∀ p ∈ params, p.key = text "received" → via.received = p.val.getD []
  no_received : (∀ p ∈ params, p.key ≠ text "received") → via.received = []
  rport : ∀ p ∈ params, p.key = text "rport" → via.rport = p.number
  no_rport : (∀ p ∈ params, p.key ≠ text "rport") → via.rport = -1

/-! ### Reading a header -/

theorem icasecompare_iff {a b : Text} : icasecompare a b = true ↔ a.map toLower = b.map toLower :=
  beq_iff_eq

/-- What one parameter does. -/
def SipVia.setParam (via : SipVia) (p : ViaParam) : SipVia :=
  { via with
    rport := if p.key = text "rport" then p.number else -1
    received :=
      if p.key = text "received" ∧ p.val.getD [] ≠ [] then p.val.getD [] else via.received
    branch := if p.key = text "branch" ∧ p.val.getD [] ≠ [] then p.val.getD [] else via.branch }

theorem SipVia.parseParam_toText {p : ViaParam} (h : p.WellFormed) (via : SipVia) :
    via.parseParam p.toText = via.setParam p := by
  have hsplit : split p.toText (text "=") (some 2) true =
      p.name :: keepPart true [] (p.val.getD []) := by
    unfold ViaParam.toText
    cases hval : p.val with
    | none => exact split_two_of_notMem (p := []) h.name_equals h.name_ne
    | some val => exact split_two_pattern (p := []) h.name_equals h.name_ne val
  have hkey (s : Text) (hs : s.map toLower = s) : icasecompare p.name s = true ↔ p.key = s := by
    rw [icasecompare_iff, hs]
    rfl
  have hrport := hkey (text "rport") (by decide)
  have hreceived := hkey (text "received") (by decide)
  have hbranch := hkey (text "branch") (by decide)
  have hne₁ : text "rport" ≠ text "received" := by decide
  have hne₂ : text "rport" ≠ text "branch" := by decide
  have hne₃ : text "received" ≠ text "branch" := by decide
  have hempty : toInt32 (strtol 10 []) = 0 := by decide
  rw [parseParam, hsplit, setParam, ViaParam.number]
  simp only [hrport, hreceived, hbranch]
  obtain ⟨val, hval⟩ : ∃ val, val = p.val.getD [] := ⟨_, rfl⟩
  rw [← hval]
  have hnil : keepPart true [] ([] : Text) = [] := rfl
  have hcons (c : UInt8) (val : Text) : keepPart true [] (c :: val) = [c :: val] := rfl
  by_cases hr : p.key = text "rport"
  · cases val <;> simp only [hr, hne₁, hne₂, hnil, hcons, hempty, if_true, if_false, false_and]
  by_cases hc : p.key = text "received"
  · cases val <;> simp only [hc, hne₁.symm, hne₃, hnil, hcons, if_true, if_false, false_and,
      true_and, ne_eq, not_true_eq_false, reduceCtorEq, not_false_eq_true]
  by_cases hb : p.key = text "branch"
  · cases val <;> simp only [hb, hne₂.symm, hne₃.symm, hnil, hcons, if_true, if_false, false_and,
      true_and, ne_eq, not_true_eq_false, reduceCtorEq, not_false_eq_true]
  · simp only [hr, hc, hb, if_false, false_and]

theorem SipVia.foldl_parseParam {params : List ViaParam} (h : ∀ p ∈ params, p.WellFormed)
    (via : SipVia) :
    (params.map ViaParam.toText).foldl parseParam via = params.foldl setParam via := by
  rw [List.foldl_map]
  induction params generalizing via with
  | nil => rfl
  | cons p params ih =>
    obtain ⟨hp, hparams⟩ := List.forall_mem_cons.mp h
    rw [List.foldl_cons, List.foldl_cons, parseParam_toText hp, ih hparams]

theorem ViaParam.WellFormed.text_part {p : ViaParam} (h : p.WellFormed) :
    p.toText ≠ [] ∧ 0x3B ∉ p.toText := by
  unfold toText
  cases hval : p.val with
  | none => exact ⟨h.name_ne, h.name_semicolon⟩
  | some val =>
    have := h.val_semicolon val hval
    have hname := h.name_semicolon
    simp_all

/-- The transport is the third part of the protocol. -/
def transportTcp (protocol : Text) : Bool :=
  match split protocol (text "/") none true with
  | _ :: _ :: transport :: _ => icasecompare transport (text "TCP")
  | _ => false

/-- What is behind the protocol is cut at the semicolons in front of the parameters. -/
theorem split_sent {host : Text} {params : List ViaParam} (hhost : host ≠ [] ∧ 0x3B ∉ host)
    (h : ∀ p ∈ params, p.WellFormed) :
    split (host ++ params.flatMap fun p => 0x3B :: p.toText) (text ";") none true =
      host :: params.map ViaParam.toText :=
  split_append_flatMap hhost fun p hp => (h p hp).text_part

/-- A header is its host and its parameters, one after the other. -/
theorem SipVia.parse_viaText {protocol host : Text} {params : List ViaParam}
    (hprotocol : protocol ≠ [] ∧ 0x20 ∉ protocol) (hhost : host ≠ [] ∧ 0x3B ∉ host)
    (h : ∀ p ∈ params, p.WellFormed) (via : SipVia) :
    parse (viaText protocol host params) via =
      (true, params.foldl setParam
        (parseHost host { via with tcp := transportTcp protocol })) := by
  have hne : host ++ params.flatMap (fun p => 0x3B :: p.toText) ≠ [] := by simp [hhost.1]
  have htwo : split (viaText protocol host params) (text " ") (some 2) true =
      [protocol, host ++ params.flatMap fun p => 0x3B :: p.toText] :=
    split_two hprotocol.2 hprotocol.1 hne
  rw [parse, htwo]
  dsimp only
  rw [split_sent hhost h]
  dsimp only
  rw [foldl_parseParam h]
  rfl

/-! ### Parameters in any order -/

theorem SipVia.foldl_setParam_text {f : SipVia → Text} {k : Text}
    (hf : ∀ via p, f (setParam via p) =
      if p.key = k ∧ p.val.getD [] ≠ [] then p.val.getD [] else f via)
    {params : List ViaParam} (h : ∀ p ∈ params, p.key ≠ k) (via : SipVia) :
    f (params.foldl setParam via) = f via := by
  induction params generalizing via with
  | nil => rfl
  | cons p params ih =>
    obtain ⟨hp, hparams⟩ := List.forall_mem_cons.mp h
    rw [List.foldl_cons, ih hparams, hf, if_neg fun h => hp h.1]

/-- A parameter with a name that no other one has is recovered, wherever it stands. -/
theorem SipVia.foldl_setParam_mem {f : SipVia → Text} {k : Text}
    (hf : ∀ via p, f (setParam via p) =
      if p.key = k ∧ p.val.getD [] ≠ [] then p.val.getD [] else f via)
    {params : List ViaParam} (hnodup : (params.map ViaParam.key).Nodup) {via : SipVia}
    (hvia : f via = []) {p : ViaParam} (hp : p ∈ params) (hkey : p.key = k) :
    f (params.foldl setParam via) = p.val.getD [] := by
  obtain ⟨front, back, rfl⟩ := List.append_of_mem hp
  rw [List.map_append, List.map_cons, List.nodup_middle, List.nodup_cons, List.mem_append,
    not_or] at hnodup
  obtain ⟨⟨hfront, hback⟩, -⟩ := hnodup
  have hother (l : List ViaParam) (hl : p.key ∉ l.map ViaParam.key) : ∀ q ∈ l, q.key ≠ k := by
    intro q hq heq
    exact hl (List.mem_map.mpr ⟨q, hq, heq.trans hkey.symm⟩)
  rw [List.foldl_append, List.foldl_cons, foldl_setParam_text hf (hother back hback), hf,
    foldl_setParam_text hf (hother front hfront), hvia]
  split_ifs with hval
  · rfl
  · by_contra hne
    exact hval ⟨hkey, fun h => hne h.symm⟩

theorem SipVia.rport_concat (params : List ViaParam) (p : ViaParam) (via : SipVia) :
    ((params ++ [p]).foldl setParam via).rport = if p.key = text "rport" then p.number else -1 := by
  rw [List.foldl_append]
  rfl

theorem SipVia.rport_foldl_iff {params : List ViaParam} (hnodup : (params.map ViaParam.key).Nodup)
    {p : ViaParam} (hp : p ∈ params) (hkey : p.key = text "rport") (via : SipVia) :
    (params.foldl setParam via).rport = p.number ↔
      params.getLast? = some p ∨ p.number = -1 := by
  obtain ⟨front, last, rfl⟩ :=
    (List.eq_nil_or_concat params).resolve_left (List.ne_nil_of_mem hp)
  rw [List.concat_eq_append] at hnodup hp ⊢
  have hsame (hname : last.key = text "rport") : last = p :=
    List.inj_on_of_nodup_map hnodup (by simp) hp (hname.trans hkey.symm)
  rw [rport_concat, List.getLast?_concat, Option.some.injEq]
  constructor
  · intro h
    split_ifs at h with hname
    · exact .inl (hsame hname)
    · exact .inr h.symm
  · rintro (rfl | hminus)
    · rw [if_pos hkey]
    · split_ifs with hname
      · rw [hsame hname]
      · exact hminus.symm

/-- All is recovered just when `rport` is not there, is the last parameter, or is -1. -/
theorem SipVia.recovers_iff {params : List ViaParam}
    (hnodup : (params.map ViaParam.key).Nodup) {via : SipVia} (hbranch : via.branch = [])
    (hreceived : via.received = []) (hrport : via.rport = -1) :
    Recovers params (params.foldl setParam via) ↔
      ∀ p ∈ params, p.key = text "rport" → params.getLast? = some p ∨ p.number = -1 := by
  constructor
  · intro h p hp hkey
    exact (rport_foldl_iff hnodup hp hkey via).mp (h.rport p hp hkey)
  · intro h
    refine ⟨?_, ?_, ?_, ?_, ?_, ?_⟩
    · intro p hp hkey
      exact foldl_setParam_mem (fun _ _ => rfl) hnodup hbranch hp hkey
    · intro hnone
      rw [foldl_setParam_text (f := SipVia.branch) (fun _ _ => rfl) hnone, hbranch]
    · intro p hp hkey
      exact foldl_setParam_mem (fun _ _ => rfl) hnodup hreceived hp hkey
    · intro hnone
      rw [foldl_setParam_text (f := SipVia.received) (fun _ _ => rfl) hnone, hreceived]
    · intro p hp hkey
      exact (rport_foldl_iff hnodup hp hkey via).mpr (h p hp hkey)
    · intro hnone
      rcases List.eq_nil_or_concat params with rfl | ⟨front, last, hlast⟩
      · exact hrport
      · rw [List.concat_eq_append] at hlast
        rw [hlast, rport_concat, if_neg (hnone last (by simp [hlast]))]

/-! ### Writing a header -/

namespace SipVia

def protocolText (via : SipVia) : Text :=
  text "SIP/2.0" ++ if via.tcp then text "/TCP" else text "/UDP"

def hostText (via : SipVia) : Text :=
  via.address ++ if via.port > 0 then 0x3A :: decimal via.port else []

def params (via : SipVia) : List ViaParam :=
  (if via.branch ≠ [] then [⟨text "branch", some via.branch⟩] else []) ++
  (if via.received ≠ [] then [⟨text "received", some via.received⟩] else []) ++
  if via.rport > 0 then [⟨text "rport", some (decimal via.rport)⟩]
  else if via.rport = 0 then [⟨text "rport", none⟩]
  else []

/-- `to_string` writes a header. -/
theorem toText_eq (via : SipVia) :
    via.toText = viaText via.protocolText via.hostText via.params := by
  have hcolon : text ":" = [0x3A] := by decide
  have hspace : text " " = [0x20] := by decide
  have hbranch : text ";branch=" = 0x3B :: (text "branch" ++ [0x3D]) := by decide
  have hreceived : text ";received=" = 0x3B :: (text "received" ++ [0x3D]) := by decide
  have hrport : text ";rport=" = 0x3B :: (text "rport" ++ [0x3D]) := by decide
  have hrport' : text ";rport" = 0x3B :: text "rport" := by decide
  have hparams : (via.params.flatMap fun p => 0x3B :: p.toText) =
      (if via.branch ≠ [] then text ";branch=" ++ via.branch else []) ++
      (if via.received ≠ [] then text ";received=" ++ via.received else []) ++
      if via.rport > 0 then text ";rport=" ++ decimal via.rport
      else if via.rport = 0 then text ";rport"
      else [] := by
    rw [params, List.flatMap_append, List.flatMap_append, hbranch, hreceived, hrport, hrport']
    congr 1
    · congr 1 <;> split_ifs <;> simp [ViaParam.toText]
    · split_ifs <;> simp [ViaParam.toText]
  rw [toText, viaText, hparams, protocolText, hostText, hcolon, hspace]
  simp

theorem mem_params {via : SipVia} {p : ViaParam} (h : p ∈ via.params) :
    p = ⟨text "branch", some via.branch⟩ ∨ p = ⟨text "received", some via.received⟩ ∨
      0 < via.rport ∧ p = ⟨text "rport", some (decimal via.rport)⟩ ∨ p = ⟨text "rport", none⟩ := by
  have hif {c : Prop} [Decidable c] {q : ViaParam} (h : p ∈ if c then [q] else []) : p = q := by
    split_ifs at h
    · exact List.mem_singleton.mp h
    · exact absurd h List.not_mem_nil
  unfold params at h
  rw [List.mem_append, List.mem_append] at h
  rcases h with (h | h) | h
  · exact .inl (hif h)
  · exact .inr (.inl (hif h))
  · split_ifs at h with hpos
    · exact .inr (.inr (.inl ⟨hpos, List.mem_singleton.mp h⟩))
    · exact .inr (.inr (.inr (List.mem_singleton.mp h)))
    · exact absurd h List.not_mem_nil

/-- The names have no `=` and no `;`, and neither has a number. -/
theorem wellFormed_params {via : SipVia} (hbranch : 0x3B ∉ via.branch)
    (hreceived : 0x3B ∉ via.received) : ∀ p ∈ via.params, p.WellFormed := by
  intro p hp
  rcases mem_params hp with rfl | rfl | ⟨hpos, rfl⟩ | rfl
  · exact ViaParam.wellFormed_of (by decide) hbranch
  · exact ViaParam.wellFormed_of (by decide) hreceived
  · apply ViaParam.wellFormed_of (by decide)
    exact notMem_decimal hpos (by decide)
  · exact ViaParam.wellFormed_of (by decide) List.not_mem_nil

theorem protocolText_spec (via : SipVia) :
    (via.protocolText ≠ [] ∧ 0x20 ∉ via.protocolText) ∧
      transportTcp via.protocolText = via.tcp := by
  unfold protocolText
  cases via.tcp <;> decide

theorem hostText_spec {via : SipVia} (haddress : via.address ≠ [])
    (hsemicolon : 0x3B ∉ via.address) : via.hostText ≠ [] ∧ 0x3B ∉ via.hostText := by
  unfold hostText
  refine ⟨by simp [haddress], ?_⟩
  rw [List.mem_append, not_or]
  refine ⟨hsemicolon, ?_⟩
  split_ifs with hport
  · rw [List.mem_cons, not_or]
    exact ⟨by decide, notMem_decimal hport (by decide)⟩
  · exact List.not_mem_nil

theorem parseHost_hostText {via : SipVia} (haddress : via.address ≠ [])
    (hcolon : 0x3A ∉ via.address) (start : SipVia) :
    parseHost via.hostText start = { start with
      address := via.address
      port := if 0 < via.port then readDecimal via.port else 0 } := by
  unfold hostText
  by_cases hport : via.port > 0
  · have hsplit : split (via.address ++ 0x3A :: decimal via.port) (text ":") (some 2) true =
        [via.address, decimal via.port] := split_two hcolon haddress (decimal_ne_nil hport)
    rw [if_pos hport, if_pos hport, parseHost, hsplit]
    rfl
  · have hsplit : split via.address (text ":") (some 2) true = [via.address] :=
      split_two_of_notMem (p := []) hcolon haddress
    rw [if_neg hport, if_neg hport, List.append_nil, parseHost, hsplit]

theorem setParam_branch (via : SipVia) (val : Text) (h : val ≠ []) :
    via.setParam ⟨text "branch", some val⟩ = { via with rport := -1, branch := val } := by
  have hkey : ViaParam.key ⟨text "branch", some val⟩ = text "branch" :=
    (by decide : (text "branch").map toLower = text "branch")
  have hne₁ : text "branch" ≠ text "rport" := by decide
  have hne₂ : text "branch" ≠ text "received" := by decide
  simp only [setParam, hkey, hne₁, hne₂, Option.getD_some, ne_eq, h, not_false_eq_true, and_self,
    false_and, if_true, if_false]

theorem setParam_received (via : SipVia) (val : Text) (h : val ≠ []) :
    via.setParam ⟨text "received", some val⟩ = { via with rport := -1, received := val } := by
  have hkey : ViaParam.key ⟨text "received", some val⟩ = text "received" :=
    (by decide : (text "received").map toLower = text "received")
  have hne₁ : text "received" ≠ text "rport" := by decide
  have hne₂ : text "received" ≠ text "branch" := by decide
  simp only [setParam, hkey, hne₁, hne₂, Option.getD_some, ne_eq, h, not_false_eq_true, and_self,
    false_and, if_true, if_false]

theorem setParam_rport (via : SipVia) (val : Option Text) :
    via.setParam ⟨text "rport", val⟩ =
      { via with rport := toInt32 (strtol 10 (val.getD [])) } := by
  have hkey : ViaParam.key ⟨text "rport", val⟩ = text "rport" :=
    (by decide : (text "rport").map toLower = text "rport")
  have hne₁ : text "rport" ≠ text "received" := by decide
  have hne₂ : text "rport" ≠ text "branch" := by decide
  simp only [setParam, hkey, hne₁, hne₂, false_and, if_true, if_false]
  rfl

theorem foldl_params (via start : SipVia) (hbranch : start.branch = [])
    (hreceived : start.received = []) (hrport : start.rport = -1) :
    via.params.foldl setParam start = { start with
      branch := via.branch
      received := via.received
      rport :=
        if 0 < via.rport then readDecimal via.rport else if via.rport = 0 then 0 else -1 } := by
  obtain ⟨tcp, address, port, rport, received, branch⟩ := start
  obtain rfl : branch = [] := hbranch
  obtain rfl : received = [] := hreceived
  obtain rfl : rport = -1 := hrport
  have hbranch : (if via.branch ≠ [] then [⟨text "branch", some via.branch⟩] else []).foldl
      setParam ⟨tcp, address, port, -1, [], []⟩ =
        ⟨tcp, address, port, -1, [], via.branch⟩ := by
    split_ifs with h
    · exact setParam_branch _ _ h
    · rw [not_not.mp h]
      rfl
  have hreceived : (if via.received ≠ [] then [⟨text "received", some via.received⟩] else []).foldl
      setParam ⟨tcp, address, port, -1, [], via.branch⟩ =
        ⟨tcp, address, port, -1, via.received, via.branch⟩ := by
    split_ifs with h
    · exact setParam_received _ _ h
    · rw [not_not.mp h]
      rfl
  rw [params, List.foldl_append, List.foldl_append, hbranch, hreceived]
  split_ifs
  · exact setParam_rport _ _
  · exact setParam_rport _ _
  · rfl

/-- Whatever is written, these members can be read again from it. -/
theorem parse_toText {via : SipVia} (haddress : via.address ≠ [])
    (hcolon : 0x3A ∉ via.address) (hsemicolon : 0x3B ∉ via.address)
    (hbranch : 0x3B ∉ via.branch) (hreceived : 0x3B ∉ via.received) :
    parse via.toText {} = (true, { via with
      port := if 0 < via.port then readDecimal via.port else 0
      rport := if 0 < via.rport then readDecimal via.rport
        else if via.rport = 0 then 0 else -1 }) := by
  obtain ⟨hprotocol, htcp⟩ := protocolText_spec via
  rw [toText_eq, parse_viaText hprotocol (hostText_spec haddress hsemicolon)
    (wellFormed_params hbranch hreceived), parseHost_hostText haddress hcolon, htcp,
    foldl_params via _ rfl rfl rfl]

/-! ### What was read -/

theorem parseParam_spec {part : Text} (hpart : 0x3B ∉ part) {via : SipVia}
    (hbranch : 0x3B ∉ via.branch) (hreceived : 0x3B ∉ via.received) :
    (via.parseParam part).address = via.address ∧ 0x3B ∉ (via.parseParam part).branch ∧
      0x3B ∉ (via.parseParam part).received := by
  have hmem : ∀ val ∈ split part (text "=") (some 2) true, 0x3B ∉ val := fun val hval hsemi =>
    hpart ((part_of_mem_split hval).1.subset hsemi)
  unfold parseParam
  cases hsplit : split part (text "=") (some 2) true with
  | nil => exact ⟨rfl, hbranch, hreceived⟩
  | cons name vals =>
    rw [hsplit] at hmem
    have hvals := (List.forall_mem_cons.mp hmem).2
    cases vals with
    | nil => dsimp only; split_ifs <;> exact ⟨rfl, hbranch, hreceived⟩
    | cons val vals =>
      have hval := (List.forall_mem_cons.mp hvals).1
      dsimp only
      split_ifs <;> exact ⟨rfl, by assumption, by assumption⟩

theorem foldl_parseParam_spec {parts : List Text} (hparts : ∀ part ∈ parts, 0x3B ∉ part)
    {via : SipVia} (hbranch : 0x3B ∉ via.branch) (hreceived : 0x3B ∉ via.received) :
    (parts.foldl parseParam via).address = via.address ∧
      0x3B ∉ (parts.foldl parseParam via).branch ∧
      0x3B ∉ (parts.foldl parseParam via).received := by
  induction parts generalizing via with
  | nil => exact ⟨rfl, hbranch, hreceived⟩
  | cons part parts ih =>
    obtain ⟨hpart, hparts⟩ := List.forall_mem_cons.mp hparts
    obtain ⟨haddress, hbranch', hreceived'⟩ := parseParam_spec hpart hbranch hreceived
    obtain ⟨haddress', hspec⟩ := ih hparts hbranch' hreceived'
    exact ⟨haddress'.trans haddress, hspec⟩

/-- A header that was accepted, in its parts. -/
theorem exists_of_parse {s : Text} {start via : SipVia} (h : parse s start = (true, via)) :
    ∃ protocol sent rest host parts tcp,
      split s (text " ") (some 2) true = protocol :: sent :: rest ∧
      split sent (text ";") none true = host :: parts ∧
      via = parts.foldl parseParam (parseHost host { start with tcp }) := by
  unfold parse at h
  split at h
  · next protocol sent rest hsplit =>
    dsimp only at h
    split at h
    · cases h
    · next host parts hparts =>
      exact ⟨protocol, sent, rest, host, parts, _, hsplit, hparts, (Prod.mk.inj h).2.symm⟩
  · cases h

theorem notMem_of_parse {s : Text} {via : SipVia} (h : parse s {} = (true, via)) :
    0x3A ∉ via.address ∧ 0x3B ∉ via.address ∧ 0x3B ∉ via.branch ∧ 0x3B ∉ via.received := by
  obtain ⟨protocol, sent, rest, host, parts, tcp, -, hsplit, rfl⟩ := exists_of_parse h
  have hmem : ∀ part ∈ host :: parts, 0x3B ∉ part := by
    intro part hpart
    exact (notMem_of_mem_split (hsplit ▸ hpart)).1
  obtain ⟨hhost, hparts⟩ := List.forall_mem_cons.mp hmem
  have haddress : 0x3A ∉ (parseHost host { tcp }).address ∧
      0x3B ∉ (parseHost host { tcp }).address ∧
      0x3B ∉ (parseHost host { tcp }).branch ∧ 0x3B ∉ (parseHost host { tcp }).received := by
    have hpart : ∀ part ∈ split host (text ":") (some 2) true, 0x3B ∉ part := by
      intro part hpart hsemi
      exact hhost ((part_of_mem_split hpart).1.subset hsemi)
    unfold parseHost
    split
    · exact ⟨List.not_mem_nil, List.not_mem_nil, List.not_mem_nil, List.not_mem_nil⟩
    · next hone =>
      exact ⟨notMem_of_split_two hone, hpart _ (hone ▸ List.mem_cons_self), List.not_mem_nil,
        List.not_mem_nil⟩
    · next htwo =>
      exact ⟨notMem_of_split_two htwo, hpart _ (htwo ▸ List.mem_cons_self), List.not_mem_nil,
        List.not_mem_nil⟩
  obtain ⟨hcolon, hsemicolon, hbranch, hreceived⟩ := haddress
  obtain ⟨hsame, hspec⟩ := foldl_parseParam_spec hparts hbranch hreceived
  rw [hsame]
  exact ⟨hcolon, hsemicolon, hspec⟩

/-- The address is read in front of the parameters. -/
theorem foldl_parseParam_address (parts : List Text) (via : SipVia) :
    (parts.foldl parseParam via).address = via.address := by
  induction parts generalizing via with
  | nil => rfl
  | cons part parts ih =>
    have hpart : (via.parseParam part).address = via.address := by
      unfold parseParam
      cases split part (text "=") (some 2) true with
      | nil => rfl
      | cons name vals => cases vals <;> (dsimp only; split_ifs <;> rfl)
    rw [List.foldl_cons, ih, hpart]

/-- A host that does not begin with a colon gives an address. -/
theorem parseHost_address_ne {host : Text} (hne : host ≠ []) (hhead : host.head? ≠ some 0x3A)
    (start : SipVia) : (parseHost host start).address ≠ [] := by
  obtain ⟨address, rest, hsplit, haddress⟩ : ∃ address rest,
      split host (text ":") (some 2) true = address :: rest ∧ address ≠ [] := by
    by_cases hmem : 0x3A ∈ host
    · obtain ⟨a, b, rfl, ha⟩ := List.eq_append_cons_of_mem hmem
      have hane : a ≠ [] := by
        rintro rfl
        exact hhead rfl
      exact ⟨a, _, split_two_pattern (p := []) ha hane b, hane⟩
    · exact ⟨host, [], split_two_of_notMem (p := []) hmem hne, hne⟩
  rw [parseHost, hsplit]
  cases rest <;> exact haddress

theorem parseHost_colon (port : Text) (start : SipVia) :
    parseHost (0x3A :: port) start = parseHost port start := by
  have hbreak : breakOn (text ":") (0x3A :: port) = some ([], port) :=
    breakOn_append List.not_mem_nil port
  rw [parseHost, parseHost, split_two_of_some (by decide) hbreak, if_pos rfl]

/-- A port without an address is read as the address. -/
theorem parseHost_port_ne {port : ℤ} (hport : 0 < port) (start : SipVia) :
    (parseHost (0x3A :: decimal port) start).address ≠ [] := by
  rw [parseHost_colon]
  apply parseHost_address_ne (decimal_ne_nil hport)
  intro hhead
  exact notMem_decimal hport (by decide) (List.mem_of_head? hhead)

/-- A parameter begins with its name. -/
theorem head_of_mem_params {via : SipVia} {p : ViaParam} (h : p ∈ via.params) :
    p.toText.head? ≠ some 0x3A := by
  have hname {c : UInt8} {name : Text} (hc : name.head? = some c) (hne : c ≠ 0x3A) (t : Text) :
      (name ++ t).head? ≠ some 0x3A := by
    rw [List.head?_append, hc, Option.some_or]
    intro h
    exact hne (Option.some.inj h)
  rcases mem_params h with rfl | rfl | ⟨-, rfl⟩ | rfl
  · exact hname (by decide : (text "branch").head? = some 0x62) (by decide) _
  · exact hname (by decide : (text "received").head? = some 0x72) (by decide) _
  · exact hname (by decide : (text "rport").head? = some 0x72) (by decide) _
  · exact (by decide : (text "rport").head? ≠ some 0x3A)

/-- Without an address something else is read as one, or nothing at all. -/
theorem address_ne_of_parse {via : SipVia} (h : parse via.toText {} = (true, via)) :
    via.address ≠ [] := by
  intro hnil
  obtain ⟨-, -, hbranch, hreceived⟩ := notMem_of_parse h
  have hwf := wellFormed_params hbranch hreceived
  obtain ⟨⟨hprotocol, hspace⟩, -⟩ := protocolText_spec via
  obtain ⟨protocol, sent, rest, host, parts, tcp, hsplit, hparts, hvia⟩ := exists_of_parse h
  have haddress : (parseHost host { tcp }).address = [] := by
    have := congrArg SipVia.address hvia
    rwa [hnil, foldl_parseParam_address, eq_comm] at this
  have htwo : split via.toText (text " ") (some 2) true = via.protocolText ::
      keepPart true [] (via.hostText ++ via.params.flatMap fun p => 0x3B :: p.toText) := by
    rw [toText_eq]
    exact split_two_pattern (p := []) hspace hprotocol _
  rw [htwo] at hsplit
  have hsent : via.hostText ++ (via.params.flatMap fun p => 0x3B :: p.toText) = sent := by
    unfold keepPart at hsplit
    split_ifs at hsplit
    · cases hsplit
    · exact (List.cons.inj (List.cons.inj hsplit).2).1
  by_cases hport : via.port > 0
  · -- the port is read as the address
    have hhost : via.hostText = 0x3A :: decimal via.port := by
      rw [hostText, hnil, if_pos hport, List.nil_append]
    have hspec : via.hostText ≠ [] ∧ 0x3B ∉ via.hostText := by
      rw [hhost]
      refine ⟨List.cons_ne_nil _ _, ?_⟩
      rw [List.mem_cons, not_or]
      exact ⟨by decide, notMem_decimal hport (by decide)⟩
    rw [← hsent, split_sent hspec hwf, hhost] at hparts
    rw [← (List.cons.inj hparts).1] at haddress
    exact parseHost_port_ne hport _ haddress
  · -- the first parameter is read as the address
    have hhost : via.hostText = [] := by rw [hostText, hnil, if_neg hport]; rfl
    rw [hhost, List.nil_append] at hsent
    cases hparams : via.params with
    | nil =>
      rw [hparams] at hsent
      rw [← hsent] at hparts
      cases hparts
    | cons p params =>
      rw [hparams] at hsent hwf
      obtain ⟨hp, hwf⟩ := List.forall_mem_cons.mp hwf
      have hcut : split sent (text ";") none true = p.toText :: params.map ViaParam.toText := by
        rw [← hsent, List.flatMap_cons, List.cons_append]
        exact (split_cons_sep 0x3B _).trans (split_sent hp.text_part hwf)
      rw [hcut] at hparts
      rw [← (List.cons.inj hparts).1] at haddress
      have hmem : p ∈ via.params := by rw [hparams]; exact List.mem_cons_self
      exact parseHost_address_ne hp.text_part.1 (head_of_mem_params hmem) _ haddress

/-- A value whose texts have no separators and whose numbers are written. -/
structure Plain (via : SipVia) : Prop where
  address_ne : via.address ≠ []
  address_colon : 0x3A ∉ via.address
  address_semicolon : 0x3B ∉ via.address
  branch_semicolon : 0x3B ∉ via.branch
  received_semicolon : 0x3B ∉ via.received
  port : 0 ≤ via.port ∧ via.port < 2 ^ 31
  rport : -1 ≤ via.rport ∧ via.rport < 2 ^ 31

theorem parse_toText_iff (via : SipVia) : parse via.toText {} = (true, via) ↔ via.Plain := by
  constructor
  · intro h
    have haddress := address_ne_of_parse h
    obtain ⟨hcolon, hsemicolon, hbranch, hreceived⟩ := notMem_of_parse h
    rw [parse_toText haddress hcolon hsemicolon hbranch hreceived] at h
    have hport : (if 0 < via.port then readDecimal via.port else 0) = via.port :=
      congrArg (fun r => r.2.port) h
    have hrport :
        (if 0 < via.rport then readDecimal via.rport else if via.rport = 0 then 0 else -1) =
          via.rport := congrArg (fun r => r.2.rport) h
    have hport' := readDecimal_lt via.port
    have hrport' := readDecimal_lt via.rport
    refine ⟨haddress, hcolon, hsemicolon, hbranch, hreceived, ?_, ?_⟩
    · split_ifs at hport <;> omega
    · split_ifs at hrport <;> omega
  · rintro ⟨haddress, hcolon, hsemicolon, hbranch, hreceived, hport, hrport⟩
    have hport' : (if 0 < via.port then readDecimal via.port else 0) = via.port := by
      split_ifs with h
      · exact readDecimal_eq h hport.2
      · omega
    have hrport' : (if 0 < via.rport then readDecimal via.rport
        else if via.rport = 0 then 0 else -1) = via.rport := by
      split_ifs with h
      · exact readDecimal_eq h hrport.2
      · omega
      · omega
    rw [parse_toText haddress hcolon hsemicolon hbranch hreceived, hport', hrport']

end SipVia

/-- A protocol without blanks, a host without semicolons, and parameters of different
names. -/
structure ViaHeader (protocol host : Text) (params : List ViaParam) : Prop where
  of_protocol : protocol ≠ [] ∧ 0x20 ∉ protocol
  of_host : host ≠ [] ∧ 0x3B ∉ host
  of_params : ∀ p ∈ params, p.WellFormed
  distinct : (params.map ViaParam.key).Nodup

theorem SipVia.parse_recovers_iff {protocol host : Text} {params : List ViaParam}
    (h : ViaHeader protocol host params) :
    (∃ via, parse (viaText protocol host params) {} = (true, via) ∧ Recovers params via) ↔
      ∀ p ∈ params, p.key = text "rport" → params.getLast? = some p ∨ p.number = -1 := by
  have hstart : (parseHost host { tcp := transportTcp protocol }).branch = [] ∧
      (parseHost host { tcp := transportTcp protocol }).received = [] ∧
      (parseHost host { tcp := transportTcp protocol }).rport = -1 := by
    unfold parseHost
    split <;> exact ⟨rfl, rfl, rfl⟩
  obtain ⟨hbranch, hreceived, hrport⟩ := hstart
  rw [parse_viaText h.of_protocol h.of_host h.of_params,
    ← recovers_iff h.distinct hbranch hreceived hrport]
  constructor
  · rintro ⟨via, hvia, hrecovers⟩
    rwa [(Prod.mk.inj hvia).2]
  · intro hrecovers
    exact ⟨_, rfl, hrecovers⟩

/-- A value is read again from its text just when it is plain, and the parameters of a header
are recovered just when `rport` is absent or the last one, or is -1, which is also what it is
when it is absent. -/
theorem via_codec_iff (via : SipVia) (protocol host : Text) (params : List ViaParam) :
    (SipVia.parse via.toText {} = (true, via) ↔ via.Plain) ∧
    (ViaHeader protocol host params →
      ((∃ via, SipVia.parse (viaText protocol host params) {} = (true, via) ∧
          Recovers params via) ↔
        ∀ p ∈ params, p.key = text "rport" → params.getLast? = some p ∨ p.number = -1)) :=
  ⟨SipVia.parse_toText_iff via, fun h => SipVia.parse_recovers_iff h⟩

private def branchRport : List ViaParam :=
  [⟨text "branch", some (text "z9")⟩, ⟨text "rport", some (text "5060")⟩]

/-- A header as `to_string` writes it. -/
theorem via_codec_iff_branch :
    ∃ via, SipVia.parse (viaText (text "SIP/2.0/UDP") (text "h") branchRport) {} = (true, via) ∧
      Recovers branchRport via := by
  have hheader : ViaHeader (text "SIP/2.0/UDP") (text "h") branchRport := by
    refine ⟨by decide, by decide, ?_, by decide⟩
    rw [branchRport, List.forall_mem_cons, List.forall_mem_singleton]
    exact ⟨ViaParam.wellFormed_of (by decide) (by decide),
      ViaParam.wellFormed_of (by decide) (by decide)⟩
  exact ((via_codec_iff {} (text "SIP/2.0/UDP") (text "h") branchRport).2 hheader).mpr (by decide)

/-- An address of version 6 is cut at its first colon, and `rport` in front of the branch is
lost. -/
theorem via_codec_fails :
    ¬ (∀ via : SipVia, SipVia.parse via.toText {} = (true, via)) ∧
    ¬ ∀ (protocol host : Text) (params : List ViaParam), ViaHeader protocol host params →
      ∃ via, SipVia.parse (viaText protocol host params) {} = (true, via) ∧
        Recovers params via := by
  constructor
  · intro h
    have hread := h { address := text "[::1]", port := 5060, branch := text "z9" }
    exact absurd (SipVia.notMem_of_parse hread).1 (by decide)
  · intro h
    have hheader : ViaHeader (text "SIP/2.0/UDP") (text "h") branchRport.reverse := by
      refine ⟨by decide, by decide, ?_, by decide⟩
      intro p hp
      simp only [branchRport, List.reverse_cons, List.reverse_nil, List.nil_append,
        List.mem_append, List.mem_singleton] at hp
      rcases hp with rfl | rfl
      · exact ViaParam.wellFormed_of (by decide) (by decide)
      · exact ViaParam.wellFormed_of (by decide) (by decide)
    obtain ⟨via, hvia, hrecovers⟩ := h _ _ _ hheader
    have hrport := hrecovers.rport ⟨text "rport", some (text "5060")⟩ (by decide) (by decide)
    have hread : (SipVia.parse (viaText (text "SIP/2.0/UDP") (text "h") branchRport.reverse)
        {}).2.rport = -1 := by decide
    rw [hvia, hrport] at hread
    exact absurd hread (by decide)

end CxxDeps.Sip
