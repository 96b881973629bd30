import Mathlib.Data.List.TakeWhile
import SignetSandbox.Orchestrator.Provision

/-!
# The host in every endpoint

The host of the environments is split by different rules in the URLs, in the port
mode, in the route of the explorer and in the certificates. `agrees_iff` says for
which hosts the rules agree.
-/

namespace SignetSandbox

/-! ## What the text of an address holds -/

namespace IpAddr

theorem toDigit_ten {c : Char} (h : (toDigit 10 c).isSome = true) : c.isDigit = true := by
  unfold toDigit at h
  by_contra hdigit
  simp only [if_neg hdigit] at h
  split at h
  · simp [Option.filter] at h
  · split at h
    · simp [Option.filter] at h
    · cases h

theorem readNumber_some {radix maxDigits bound : Nat} {zero : Bool} {cs rest : List Char} {n : Nat}
    (h : readNumber radix maxDigits bound zero cs = some (n, rest)) :
    ∃ digits, cs = digits ++ rest ∧ digits ≠ [] ∧ ∀ c ∈ digits, (toDigit radix c).isSome = true := by
  simp only [readNumber] at h
  split at h
  · cases h
  · next hbad =>
    obtain ⟨-, rfl⟩ := Prod.mk.inj (Option.some.inj h)
    refine ⟨cs.takeWhile fun c => (toDigit radix c).isSome, ?_, ?_, ?_⟩
    · exact (List.prefix_iff_eq_append.1 (List.takeWhile_prefix _)).symm
    · intro hempty
      exact hbad (.inl (by rw [hempty]; rfl))
    · exact List.all_eq_true.1 List.all_takeWhile

theorem readSeparator_succ {α : Type} {sep : Char} {index : Nat}
    {inner : List Char → Option (α × List Char)} {cs : List Char} {r : α × List Char}
    (h : readSeparator sep (index + 1) inner cs = some r) :
    ∃ cs', cs = sep :: cs' ∧ inner cs' = some r := by
  unfold readSeparator readGivenChar at h
  rw [if_pos (Nat.succ_pos _)] at h
  cases cs with
  | nil => cases h
  | cons c cs =>
    dsimp only at h
    split at h
    · next hc => exact ⟨cs, by rw [hc], h⟩
    · cases h

/-- An IPv4 address is written in digits and dots. -/
theorem readIpv4Addr_some {cs rest : List Char} {octets : List Nat}
    (h : readIpv4Addr cs = some (octets, rest)) :
    ∃ text, cs = text ++ rest ∧ text ≠ [] ∧ ∀ c ∈ text, c.isDigit = true ∨ c = '.' := by
  unfold readIpv4Addr at h
  simp only [Option.bind_eq_bind, Option.bind_eq_some_iff, Prod.exists] at h
  obtain ⟨a, csa, ha, b, csb, hb, c, csc, hc, d, csd, hd, h⟩ := h
  obtain ⟨-, rfl⟩ := Prod.mk.inj (Option.some.inj h)
  obtain ⟨da, rfl, hne, hda⟩ := readNumber_some (show readNumber 10 3 255 false cs = _ from ha)
  obtain ⟨csb', rfl, hb⟩ := readSeparator_succ hb
  obtain ⟨db, rfl, -, hdb⟩ := readNumber_some hb
  obtain ⟨csc', rfl, hc⟩ := readSeparator_succ hc
  obtain ⟨dc, rfl, -, hdc⟩ := readNumber_some hc
  obtain ⟨csd', rfl, hd⟩ := readSeparator_succ hd
  obtain ⟨dd, rfl, -, hdd⟩ := readNumber_some hd
  refine ⟨da ++ ('.' :: db) ++ ('.' :: dc) ++ ('.' :: dd), by simp, by simp, fun x hx => ?_⟩
  simp only [List.mem_append, List.mem_cons] at hx
  rcases hx with ((hx | hx | hx) | hx | hx) | hx | hx
  · exact .inl (toDigit_ten (hda x hx))
  · exact .inr hx
  · exact .inl (toDigit_ten (hdb x hx))
  · exact .inr hx
  · exact .inl (toDigit_ten (hdc x hx))
  · exact .inr hx
  · exact .inl (toDigit_ten (hdd x hx))

theorem parse_v4_chars {text : String} {octets : List Nat} (h : parse text = some (.v4 octets)) :
    text ≠ "" ∧ ∀ c ∈ text.toList, c.isDigit = true ∨ c = '.' := by
  unfold parse at h
  split at h
  · next rest hread =>
    split at h
    · next hrest =>
      obtain ⟨digits, htext, hne, hchars⟩ := readIpv4Addr_some hread
      rw [List.isEmpty_iff.1 hrest, List.append_nil] at htext
      refine ⟨?_, htext ▸ hchars⟩
      rintro rfl
      exact hne htext.symm
    · cases h
  · split at h
    · split at h <;> cases h
    · cases h

/-- Without a colon, the groups end at the first that needs one. -/
theorem readGroups_succ {slots index : Nat} {cs : List Char} (h : ':' ∉ cs) :
    readGroups slots (index + 1) cs = ([], false, cs) := by
  have hnone : ∀ {α : Type} (inner : List Char → Option (α × List Char)),
      readSeparator ':' (index + 1) inner cs = none := by
    intro α inner
    rw [Option.eq_none_iff_forall_ne_some]
    intro r hr
    obtain ⟨cs', rfl, -⟩ := readSeparator_succ hr
    exact h List.mem_cons_self
  cases slots with
  | zero => rfl
  | succ slots =>
    unfold readGroups
    rw [hnone, hnone, ite_self]

/-- There is no IPv6 address without a colon. -/
theorem readIpv6Addr_none {cs : List Char} (h : ':' ∉ cs) : readIpv6Addr cs = none := by
  have hcolon : ∀ {cs : List Char}, ':' ∉ cs → readGivenChar ':' cs = none := by
    intro cs h
    cases cs with
    | nil => rfl
    | cons c cs => exact if_neg (Ne.symm (List.ne_of_not_mem_cons h))
  have hgroups : ∃ groups ipv4 rest, readGroups 8 0 cs = (groups, ipv4, rest) ∧ groups.length < 8 ∧
      (ipv4 = false → ':' ∉ rest) := by
    unfold readGroups
    split
    · exact ⟨_, _, _, rfl, by simp, nofun⟩
    · split
      · next group rest hgroup =>
        obtain ⟨digits, hcs, -⟩ := readNumber_some (show readNumber 16 4 0xFFFF true cs = _ from hgroup)
        rw [hcs, List.mem_append, not_or] at h
        rw [readGroups_succ h.2]
        exact ⟨_, _, _, rfl, by simp, fun _ => h.2⟩
      · exact ⟨_, _, _, rfl, by simp, fun _ => h⟩
  obtain ⟨groups, ipv4, rest, hread, hlength, hrest⟩ := hgroups
  unfold readIpv6Addr
  rw [hread]
  dsimp only
  rw [if_neg hlength.ne]
  cases ipv4 with
  | true => rfl
  | false => rw [if_neg nofun, hcolon (hrest rfl)]; rfl

theorem parse_v6_colon {text : String} {groups : List Nat} (h : parse text = some (.v6 groups)) :
    ':' ∈ text.toList := by
  by_contra hcolon
  unfold parse at h
  rw [readIpv6Addr_none hcolon] at h
  split at h
  · split at h <;> cases h
  · cases h

end IpAddr

/-! ## URLs -/

/-- The scheme, the host and the port of a URL. -/
structure Url where
  scheme : String
  host : String
  port : Option Nat
deriving DecidableEq

namespace Url

/-- The host at the front of an authority: up to the closing bracket when it opens
with one, else up to a colon. -/
def splitHost (authority : List Char) : Option (List Char × List Char) :=
  if authority.head? = some '[' then
    (Orchestrator.splitOnce [']'] authority).map fun (inner, rest) => (inner ++ [']'], rest)
  else some (authority.takeWhile (· != ':'), authority.dropWhile (· != ':'))

/-- Nothing, or a colon and decimal digits. -/
def readPort : List Char → Option (Option Nat)
  | [] => some none
  | c :: digits =>
    if c = ':' ∧ digits.all Char.isDigit then
      some (if digits.isEmpty then none else some (Nat.ofDigitChars 10 digits 0))
    else none

/-- `scheme://host[:port]`, and perhaps a path, a query or a fragment after it. -/
def parse (url : String) : Option Url := do
  let (scheme, rest) ← Orchestrator.splitOnce "://".toList url.toList
  let (host, rest) ← splitHost (rest.takeWhile fun c => !(c == '/' || c == '?' || c == '#'))
  let port ← readPort rest
  if host.isEmpty then none else some ⟨String.ofList scheme, String.ofList host, port⟩

example : parse "http://[::1]:8080/api" = some ⟨"http", "[::1]", some 8080⟩ := by decide

end Url

def letterOrDigit (c : Char) : Bool :=
  ('a' ≤ c && c ≤ 'z') || ('A' ≤ c && c ≤ 'Z') || c.isDigit

/-- A character that no rule splits at. -/
def plain (c : Char) : Bool := letterOrDigit c || c == '-' || c == '.' || c == '_' || c == '+'

theorem ne_of_plain {c d : Char} (hc : plain c = true) (hd : plain d = false) : c ≠ d := by
  rintro rfl
  exact absurd (hc.symm.trans hd) nofun

theorem not_mem_of_plain {cs : List Char} {d : Char} (hcs : ∀ c ∈ cs, plain c = true)
    (hd : plain d = false) : d ∉ cs := fun h => ne_of_plain (hcs d h) hd rfl

theorem plain_of_isDigit {c : Char} (h : c.isDigit = true) : plain c = true := by
  unfold plain letterOrDigit
  rw [h]
  simp

/-- A scheme ends at its separator. -/
theorem splitOnce_scheme {rest : List Char} : ∀ {scheme : List Char}, ':' ∉ scheme →
    Orchestrator.splitOnce [':', '/', '/'] (scheme ++ [':', '/', '/'] ++ rest) = some (scheme, rest)
  | [], _ => by
    change (if List.isPrefixOf [':', '/', '/'] _ = true then _ else _) = _
    rw [if_pos (by rfl)]
    rfl
  | c :: scheme, h => by
    have hc : ':' ≠ c := List.ne_of_not_mem_cons h
    change (if List.isPrefixOf (':' :: ['/', '/']) (c :: (scheme ++ [':', '/', '/'] ++ rest)) = true
      then _ else Option.map _ (Orchestrator.splitOnce [':', '/', '/'] (scheme ++ [':', '/', '/'] ++ rest))) = _
    rw [List.isPrefixOf_cons_cons, beq_false_of_ne hc, Bool.false_and, if_neg nofun,
      splitOnce_scheme fun hmem => h (List.mem_cons_of_mem _ hmem)]
    rfl

/-- Without a slash there is no scheme. -/
theorem splitOnce_none : ∀ {cs : List Char}, '/' ∉ cs → Orchestrator.splitOnce [':', '/', '/'] cs = none
  | [], _ => rfl
  | c :: cs, h => by
    have hbegins : List.isPrefixOf (':' :: ['/', '/']) (c :: cs) = false := by
      rw [Bool.eq_false_iff]
      intro hbegins
      rw [List.isPrefixOf_iff_prefix] at hbegins
      exact h (hbegins.subset (by simp))
    change (if List.isPrefixOf (':' :: ['/', '/']) (c :: cs) = true then _ else
      Option.map _ (Orchestrator.splitOnce [':', '/', '/'] cs)) = _
    rw [hbegins, if_neg nofun, splitOnce_none fun hmem => h (List.mem_cons_of_mem _ hmem)]
    rfl

theorem splitUrlBase_some {base : String} {scheme host : List Char}
    (h : Orchestrator.splitOnce "://".toList base.toList = some (scheme, host)) :
    Orchestrator.splitUrlBase base = (String.ofList scheme, String.ofList host) := by
  unfold Orchestrator.splitUrlBase
  rw [h]

theorem splitUrlBase_none {base : String} (h : Orchestrator.splitOnce "://".toList base.toList = none) :
    Orchestrator.splitUrlBase base = ("http", base) := by
  unfold Orchestrator.splitUrlBase
  rw [h]

/-- What follows a plain host: nothing, or a port. -/
def portChars (port : Option (List Char)) : List Char := (port.map fun digits => ':' :: digits).getD []

namespace Url

variable {scheme host : List Char} {port : Option (List Char)}

theorem takeWhile_plain (hhost : ∀ c ∈ host, plain c = true) :
    (host ++ portChars port).takeWhile (· != ':') = host ∧
      (host ++ portChars port).dropWhile (· != ':') = portChars port := by
  have hne : ∀ c ∈ host, (c != ':') = true := fun c hc => bne_iff_ne.2 (ne_of_plain (hhost c hc) rfl)
  rw [List.takeWhile_append_of_pos hne, List.dropWhile_append_of_pos hne]
  cases port with
  | none => exact ⟨List.append_nil _, rfl⟩
  | some digits => exact ⟨List.append_nil _, rfl⟩

/-- A URL of a plain host reads back. -/
theorem parse_plain (hscheme : ':' ∉ scheme) (hne : host ≠ []) (hhost : ∀ c ∈ host, plain c = true)
    (hport : ∀ digits ∈ port, ∀ c ∈ digits, c.isDigit = true) :
    parse (String.ofList (scheme ++ [':', '/', '/'] ++ (host ++ portChars port))) =
      some ⟨String.ofList scheme, String.ofList host,
        port.bind fun digits => if digits.isEmpty then none else some (Nat.ofDigitChars 10 digits 0)⟩ := by
  have hauthority : (host ++ portChars port).takeWhile (fun c => !(c == '/' || c == '?' || c == '#')) =
      host ++ portChars port := by
    refine List.takeWhile_eq_self_iff.2 fun c hc => ?_
    have hcolon : c = ':' ∨ plain c = true := by
      rcases List.mem_append.1 hc with hc | hc
      · exact .inr (hhost c hc)
      · cases port with
        | none => cases hc
        | some digits =>
          rcases List.mem_cons.1 hc with hc | hc
          · exact .inl hc
          · exact .inr (plain_of_isDigit (hport digits rfl c hc))
    rcases hcolon with rfl | hplain
    · rfl
    · rw [beq_false_of_ne (ne_of_plain hplain rfl), beq_false_of_ne (ne_of_plain hplain rfl),
        beq_false_of_ne (ne_of_plain hplain rfl)]
      rfl
  have hsplit : splitHost (host ++ portChars port) = some (host, portChars port) := by
    obtain ⟨htake, hdrop⟩ := @takeWhile_plain host port hhost
    unfold splitHost
    rw [htake, hdrop, if_neg]
    cases host with
    | nil => exact absurd rfl hne
    | cons c cs =>
      intro hbracket
      exact ne_of_plain (hhost c List.mem_cons_self) rfl (Option.some.inj hbracket)
  have hread : readPort (portChars port) =
      some (port.bind fun digits =>
        if digits.isEmpty then none else some (Nat.ofDigitChars 10 digits 0)) := by
    cases port with
    | none => rfl
    | some digits => exact if_pos ⟨rfl, List.all_eq_true.2 (hport digits rfl)⟩
  unfold parse
  rw [String.toList_ofList, String.toList_ofList, splitOnce_scheme hscheme]
  simp only [Option.bind_eq_bind, Option.bind_some, hauthority, hsplit, hread]
  rw [if_neg (by rwa [List.isEmpty_iff])]

/-- A URL with a number for its port. -/
theorem parse_port {start scheme host : String} (p : Nat) (hstart : start = scheme ++ "://")
    (hscheme : ':' ∉ scheme.toList) (hne : host ≠ "") (hhost : ∀ c ∈ host.toList, plain c = true) :
    parse (start ++ host ++ ":" ++ p.repr) = some ⟨scheme, host, some p⟩ := by
  have htext : start ++ host ++ ":" ++ p.repr =
      String.ofList (scheme.toList ++ [':', '/', '/'] ++
        (host.toList ++ portChars (some (Nat.toDigits 10 p)))) := by
    rw [hstart, ← String.toList_inj, String.toList_ofList]
    simp only [String.toList_append, Nat.toList_repr, List.append_assoc]
    rfl
  rw [htext, parse_plain hscheme (fun h => hne (String.toList_inj.1 h)) hhost ?_]
  · rw [String.ofList_toList, String.ofList_toList, Option.bind_some,
      if_neg (by rw [List.isEmpty_iff]; exact Nat.toDigits_ne_nil), Nat.ofDigitChars_ten_toDigits]
  · rintro digits ⟨⟩ c hc
    exact Nat.isDigit_of_mem_toDigits (by decide) (by decide) hc

end Url

/-! ## Hosts of environments -/

/-- A DNS name: letters, digits, hyphens, underscores and dots, and neither an
address nor `localhost`. -/
structure DomainName (text : String) : Prop where
  ne : text ≠ ""
  chars : ∀ c ∈ text.toList, letterOrDigit c || c == '-' || c == '.' || c == '_'
  address : IpAddr.parse text = none
  localhost : text ≠ "localhost"

inductive Host
  | domain (name : String) (h : DomainName name)
  | localhost
  | v4 (literal : String) (octets : List Nat) (h : IpAddr.parse literal = some (.v4 octets))
  | v6 (literal : String) (groups : List Nat) (h : IpAddr.parse literal = some (.v6 groups))

namespace Host

/-- The host as a URL spells it. -/
def text : Host → String
  | .domain name _ => name
  | .localhost => "localhost"
  | .v4 literal _ _ => literal
  | .v6 literal _ _ => s!"[{literal}]"

def IsDomain : Host → Prop
  | .domain _ _ => True
  | _ => False

def IsV6 : Host → Prop
  | .v6 _ _ _ => True
  | _ => False

/-- The name that a certificate has for the host. -/
def san : Host → SanType
  | .domain name _ => .dnsName name
  | .localhost => .dnsName "localhost"
  | .v4 _ octets _ => .ipAddress (.v4 octets)
  | .v6 _ groups _ => .ipAddress (.v6 groups)

variable {host : Host}

theorem plain_text (h : ¬host.IsV6) : host.text ≠ "" ∧ ∀ c ∈ host.text.toList, plain c = true := by
  cases host with
  | domain name hname =>
    refine ⟨hname.ne, fun c hc => ?_⟩
    have := hname.chars c hc
    unfold plain
    rw [this, Bool.true_or]
  | localhost => exact ⟨by decide, List.all_eq_true.1 (by decide)⟩
  | v4 literal octets hparse =>
    obtain ⟨hne, hchars⟩ := IpAddr.parse_v4_chars hparse
    refine ⟨hne, fun c hc => ?_⟩
    rcases hchars c hc with hdigit | rfl
    · exact plain_of_isDigit hdigit
    · rfl
  | v6 => exact absurd trivial h

/-- The host of an IPv6 literal has a colon. -/
theorem colon_text (h : host.IsV6) : ':' ∈ host.text.toList := by
  cases host with
  | v6 literal groups hparse =>
    have hcolon := IpAddr.parse_v6_colon hparse
    change ':' ∈ ("[" ++ literal ++ "]").toList
    rw [String.toList_append, String.toList_append]
    exact List.mem_append_left _ (List.mem_append_right _ hcolon)
  | _ => exact h.elim

theorem explorerPortsEnabled_text (h : ¬host.IsV6) :
    Orchestrator.explorerPortsEnabled host.text = true ↔ ¬host.IsDomain := by
  obtain ⟨-, hplain⟩ := plain_text h
  have htrim : ∀ {d : Char} {cs : List Char}, (∀ c ∈ cs, plain c = true) → plain d = false →
      cs.dropWhile (· == d) = cs := by
    intro d cs hcs hd
    refine List.dropWhile_eq_self_iff.2 fun hlength => ?_
    exact beq_iff_eq.not.2 (ne_of_plain (hcs _ (List.getElem_mem hlength)) hd)
  have hbare : ((host.text.toList.dropWhile (· == '[')).reverse.dropWhile (· == ']')).reverse =
      host.text.toList := by
    rw [htrim hplain rfl, htrim (fun c hc => hplain c (List.mem_reverse.1 hc)) rfl, List.reverse_reverse]
  unfold Orchestrator.explorerPortsEnabled
  simp only [hbare, String.ofList_toList, Bool.or_eq_true, beq_iff_eq]
  cases host with
  | domain name hname => simp [text, IsDomain, hname.address, hname.localhost]
  | localhost => simp [text, IsDomain]
  | v4 literal octets hparse => simp [text, IsDomain, hparse]
  | v6 => exact absurd trivial h

end Host

/-- A value of `SIGNET_ENV_HOST`: `[scheme://]host[:port]`. -/
structure EnvHost where
  scheme : Option String
  host : Host
  port : Option (List Char)
  scheme_chars : ∀ s ∈ scheme, ∀ c ∈ s.toList, letterOrDigit c || c == '+' || c == '-' || c == '.'
  port_digits : ∀ digits ∈ port, ∀ c ∈ digits, c.isDigit = true

namespace EnvHost

variable (v : EnvHost)

/-- The host and the port. -/
def authority : String := v.host.text ++ String.ofList (portChars v.port)

def text : String := ((v.scheme.map fun s => s ++ "://").getD "") ++ v.authority

/-- What the orchestrator of this host puts into its endpoints. -/
structure Agrees : Prop where
  lnHost : (Orchestrator.connect v.text).lnHost = v.host.text
  explorerPorts : (Orchestrator.connect v.text).explorerPorts = true ↔ ¬v.host.IsDomain
  electrum : ∀ p, ∃ url, (Orchestrator.connect v.text).indexerEndpoint (some p) = some url ∧
    Url.parse url = some ⟨"tcp", v.host.text, some p⟩
  explorer : ¬v.host.IsDomain → ∀ envId p, ∃ url,
    (Orchestrator.connect v.text).explorerUrl true envId (some p) = some url ∧
      Url.parse url = some ⟨v.scheme.getD "http", v.host.text, some p⟩
  rest : ∀ p : Nat, Url.parse ((Orchestrator.connect v.text).lightningRestUrl p) =
    some ⟨"https", v.host.text, some p⟩
  grpc : ∀ p : Nat, Url.parse ((Orchestrator.connect v.text).lightningGrpcUrl p) =
    some ⟨"https", v.host.text, some (p + 1)⟩
  route : v.host.IsDomain → ∀ (ns : String) (e : Uuid) (p : Option Nat), ∃ route hostname url parts,
    (Orchestrator.connect v.text).applyExplorerRoute ns e.shortId = Orch.kube (.create route) ∧
      route.spec = .route [hostname] ∧
      (Orchestrator.connect v.text).explorerUrl true e.shortId p = some url ∧
      Url.parse url = some parts ∧ parts.host = hostname
  san : ∀ inst ns, (∀ c ∈ inst.toList, c.toNat < 128) → (∀ c ∈ ns.toList, c.toNat < 128) →
    ∃ sans, subjectAltNames inst ns (Orchestrator.connect v.text).lnHost = .ok sans ∧
      v.host.san ∈ sans

variable {v}

theorem plain_authority (h : ¬v.host.IsV6) : '/' ∉ v.authority.toList := by
  unfold authority
  rw [String.toList_append, String.toList_ofList, List.mem_append, not_or]
  refine ⟨not_mem_of_plain (Host.plain_text h).2 rfl, ?_⟩
  cases hport : v.port with
  | none => exact List.not_mem_nil
  | some digits =>
    refine List.not_mem_cons_of_ne_of_not_mem (by decide) ?_
    exact not_mem_of_plain (fun c hc => plain_of_isDigit (v.port_digits digits hport c hc)) rfl

theorem scheme_colon : ∀ s ∈ v.scheme, ':' ∉ s.toList := by
  intro s hs hmem
  exact absurd (v.scheme_chars s hs ':' hmem) (by decide)

theorem splitUrlBase_text (h : ¬v.host.IsV6) :
    Orchestrator.splitUrlBase v.text = (v.scheme.getD "http", v.authority) := by
  unfold text
  cases hscheme : v.scheme with
  | none =>
    change Orchestrator.splitUrlBase ("" ++ v.authority) = ("http", v.authority)
    rw [String.empty_append]
    exact splitUrlBase_none (splitOnce_none (plain_authority h))
  | some s =>
    have hsplit : Orchestrator.splitOnce "://".toList (s ++ "://" ++ v.authority).toList =
        some (s.toList, v.authority.toList) := by
      rw [String.toList_append, String.toList_append]
      exact splitOnce_scheme (scheme_colon s hscheme)
    have hbase := splitUrlBase_some hsplit
    rwa [String.ofList_toList, String.ofList_toList] at hbase

/-- How the orchestrator reads the text of a plain host. -/
theorem connect_text (h : ¬v.host.IsV6) : Orchestrator.connect v.text =
    ⟨v.authority, v.host.text, v.scheme.getD "http", Orchestrator.explorerPortsEnabled v.host.text⟩ := by
  have hhost : String.ofList (v.authority.toList.takeWhile (· != ':')) = v.host.text := by
    unfold authority
    rw [String.toList_append, String.toList_ofList, (Url.takeWhile_plain (Host.plain_text h).2).1,
      String.ofList_toList]
  unfold Orchestrator.connect
  rw [splitUrlBase_text h]
  dsimp only
  rw [hhost]

end EnvHost

/-! ## Certificates -/

/-- Text that a DNS name of a certificate can hold. -/
abbrev Ascii (s : String) : Prop := ∀ c ∈ s.toList, c.toNat < 128

theorem ascii_of_all {s : String} (h : s.toList.all (fun c => c.toNat < 128) = true) : Ascii s :=
  fun c hc => of_decide_eq_true (List.all_eq_true.1 h c hc)

theorem Ascii.append {a b : String} (ha : Ascii a) (hb : Ascii b) : Ascii (a ++ b) := by
  intro c hc
  rw [String.toList_append, List.mem_append] at hc
  exact hc.elim (ha c) (hb c)

theorem ascii_of_plain {s : String} (h : ∀ c ∈ s.toList, plain c = true) : Ascii s := by
  intro c hc
  have hplain := h c hc
  simp only [plain, letterOrDigit, Char.isDigit, Char.le_def, Bool.or_eq_true, Bool.and_eq_true,
    decide_eq_true_eq, beq_iff_eq, UInt32.le_iff_toNat_le] at hplain
  have hnat : c.toNat = c.val.toNat := rfl
  have hZ : 'Z'.val.toNat = 90 := rfl
  have hz : 'z'.val.toNat = 122 := rfl
  have h9 : '9'.val.toNat = 57 := rfl
  rcases hplain with (((((hlower | hupper) | hdigit) | rfl) | rfl) | rfl) | rfl
  · omega
  · omega
  · omega
  all_goals decide

theorem dnsName_ascii {name : String} (h : Ascii name) : dnsName name = .ok (.dnsName name) :=
  if_pos (List.all_eq_true.2 fun c hc => decide_eq_true (h c hc))

/-- The public host comes last among the names. -/
theorem subjectAltNames_ascii {inst ns host : String} (hinst : Ascii inst) (hns : Ascii ns)
    (hhost : Ascii host) (hne : host ≠ "") : ∃ sans, subjectAltNames inst ns host = .ok sans ∧
      (match IpAddr.parse host with
        | some ip => SanType.ipAddress ip
        | none => .dnsName host) ∈ sans := by
  have hshort : Ascii ("lnd-" ++ inst) := .append (ascii_of_all rfl) hinst
  have hnamed : Ascii ("lnd-" ++ inst ++ "." ++ ns) := .append (.append hshort (ascii_of_all rfl)) hns
  have hsvc : Ascii ("lnd-" ++ inst ++ "." ++ ns ++ ".svc") := .append hnamed (ascii_of_all rfl)
  have hcluster : Ascii ("lnd-" ++ inst ++ "." ++ ns ++ ".svc.cluster.local") :=
    .append hnamed (ascii_of_all rfl)
  have hpod : Ascii ("lnd-" ++ inst ++ "-0.lnd-" ++ inst ++ "." ++ ns ++ ".svc.cluster.local") :=
    .append (.append (.append (.append (.append hshort (ascii_of_all rfl)) hinst) (ascii_of_all rfl))
      hns) (ascii_of_all rfl)
  have hnames : dnsName s!"lnd-{inst}" = .ok (.dnsName s!"lnd-{inst}") ∧
      dnsName s!"lnd-{inst}.{ns}.svc" = .ok (.dnsName s!"lnd-{inst}.{ns}.svc") ∧
      dnsName s!"lnd-{inst}.{ns}.svc.cluster.local" =
        .ok (.dnsName s!"lnd-{inst}.{ns}.svc.cluster.local") ∧
      dnsName s!"lnd-{inst}-0.lnd-{inst}.{ns}.svc.cluster.local" =
        .ok (.dnsName s!"lnd-{inst}-0.lnd-{inst}.{ns}.svc.cluster.local") :=
    ⟨dnsName_ascii hshort, dnsName_ascii hsvc, dnsName_ascii hcluster, dnsName_ascii hpod⟩
  obtain ⟨h1, h2, h3, h4⟩ := hnames
  unfold subjectAltNames
  rw [h1, h2, h3, h4, dnsName_ascii (show Ascii "localhost" from ascii_of_all rfl)]
  dsimp only [bind, Except.bind]
  cases IpAddr.parse host with
  | some ip => exact ⟨_, rfl, by simp⟩
  | none =>
    dsimp only
    rw [if_pos hne, dnsName_ascii hhost]
    exact ⟨_, rfl, by simp⟩

namespace Host

theorem san_eq {host : Host} (h : ¬host.IsV6) : host.san = match IpAddr.parse host.text with
    | some ip => SanType.ipAddress ip
    | none => .dnsName host.text := by
  cases host with
  | domain name hname => rw [text, hname.address]; rfl
  | localhost => rfl
  | v4 literal octets hparse => rw [text, hparse]; rfl
  | v6 => exact absurd trivial h

end Host

namespace EnvHost

variable {v : EnvHost}

/-- Behind the id of an environment, a plain host is still plain. -/
theorem plain_explorerHostname {host : String} (hhost : ∀ c ∈ host.toList, plain c = true) (e : Uuid) :
    ∀ c ∈ (Orchestrator.explorerHostname host e.shortId).toList, plain c = true := by
  intro c hc
  change c ∈ ("env-" ++ e.shortId ++ "." ++ host).toList at hc
  simp only [String.toList_append, List.mem_append] at hc
  rcases hc with ((hc | hc) | hc) | hc
  · exact (List.all_eq_true.1 (show "env-".toList.all plain = true by decide)) c hc
  · rw [Uuid.shortId_toList, List.mem_map] at hc
    obtain ⟨i, -, rfl⟩ := hc
    exact (show ∀ d < 16, plain (Nat.digitChar d) = true by decide) _ (e.digit_lt i)
  · exact (List.all_eq_true.1 (show ".".toList.all plain = true by decide)) c hc
  · exact hhost c hc

/-- The host of the explorer, in front of the port of the environments. -/
theorem parse_explorerUrl (h : ¬v.host.IsV6) (hdomain : v.host.IsDomain) (e : Uuid) (p : Option Nat) :
    ∃ url parts, (Orchestrator.connect v.text).explorerUrl true e.shortId p = some url ∧
      Url.parse url = some parts ∧
      parts.host = Orchestrator.explorerHostname v.host.text e.shortId := by
  have hscheme : ':' ∉ (v.scheme.getD "http").toList := by
    cases hs : v.scheme with
    | none => decide
    | some s => exact scheme_colon s hs
  have hoff : Orchestrator.explorerPortsEnabled v.host.text = false := by
    rw [Bool.eq_false_iff, ne_eq, Host.explorerPortsEnabled_text h, not_not]
    exact hdomain
  have hplain := plain_explorerHostname (Host.plain_text h).2 e
  have hne : (Orchestrator.explorerHostname v.host.text e.shortId).toList ≠ [] := by
    change ("env-" ++ e.shortId ++ "." ++ v.host.text).toList ≠ []
    simp [String.toList_append]
  have htext : v.scheme.getD "http" ++ "://" ++ Orchestrator.explorerHostname v.authority e.shortId =
      String.ofList ((v.scheme.getD "http").toList ++ [':', '/', '/'] ++
        ((Orchestrator.explorerHostname v.host.text e.shortId).toList ++ portChars v.port)) := by
    change _ ++ ("env-" ++ e.shortId ++ "." ++ (v.host.text ++ _)) = String.ofList (_ ++ _ ++
      (("env-" ++ e.shortId ++ "." ++ v.host.text).toList ++ _))
    rw [← String.toList_inj, String.toList_ofList]
    simp only [String.toList_append, String.toList_ofList, List.append_assoc]
    rfl
  have hparse := Url.parse_plain hscheme hne hplain v.port_digits
  rw [← htext] at hparse
  refine ⟨_, _, ?_, hparse, String.ofList_toList⟩
  rw [connect_text h]
  unfold Orchestrator.explorerUrl
  dsimp only
  rw [if_neg (by decide), hoff, if_neg nofun]
  rfl

/-- The rules agree on a host that is no IPv6 literal, and no DNS name with a port. -/
theorem agrees (h6 : ¬v.host.IsV6) (hport : v.host.IsDomain → v.port = none) : v.Agrees := by
  obtain ⟨hne, hplain⟩ := Host.plain_text h6
  have hscheme : ':' ∉ (v.scheme.getD "http").toList := by
    cases hs : v.scheme with
    | none => decide
    | some s => exact scheme_colon s hs
  have hports := Host.explorerPortsEnabled_text h6
  have hconnect := connect_text h6
  exact {
    lnHost := by rw [hconnect]
    explorerPorts := by rw [hconnect]; exact hports
    electrum := fun p => by
      rw [hconnect]
      exact ⟨_, rfl, Url.parse_port p (show "tcp://" = _ by decide) (by decide) hne hplain⟩
    explorer := fun hdomain envId p => by
      rw [hconnect]
      unfold Orchestrator.explorerUrl
      dsimp only
      rw [if_neg (by decide), if_pos (hports.2 hdomain)]
      exact ⟨_, rfl, Url.parse_port p rfl hscheme hne hplain⟩
    rest := fun p => by
      rw [hconnect]
      exact Url.parse_port p (show "https://" = _ by decide) (by decide) hne hplain
    grpc := fun p => by
      rw [hconnect]
      exact Url.parse_port (p + 1) (show "https://" = _ by decide) (by decide) hne hplain
    route := fun hdomain ns e p => by
      obtain ⟨url, parts, hurl, hparse, hhost⟩ := parse_explorerUrl h6 hdomain e p
      refine ⟨_, _, url, parts, rfl, rfl, hurl, hparse, ?_⟩
      rw [hhost, hconnect]
      unfold authority
      rw [hport hdomain]
      exact congrArg (Orchestrator.explorerHostname · e.shortId) (String.append_empty).symm
    san := fun inst ns hinst hns => by
      rw [hconnect, Host.san_eq h6]
      exact subjectAltNames_ascii hinst hns (ascii_of_plain hplain) hne }

theorem kube_create_inj {a b : KubeObject} (h : Orch.kube (.create a) = Orch.kube (.create b)) :
    a = b := by
  obtain ⟨h, -⟩ := Interleave.Prog.call.inj h
  exact Call.create.inj (Op.kube.inj h)

theorem explorerHostname_inj {a b envId : String}
    (h : Orchestrator.explorerHostname a envId = Orchestrator.explorerHostname b envId) : a = b := by
  change "env-" ++ envId ++ "." ++ a = "env-" ++ envId ++ "." ++ b at h
  rw [← String.toList_inj] at h ⊢
  simpa only [String.toList_append, List.append_assoc, List.append_cancel_left_eq] using h

/-- **One host for every endpoint.** All the rules agree exactly on the hosts that
are no IPv6 literals, and on DNS names only without a port. -/
theorem agrees_iff (v : EnvHost) :
    v.Agrees ↔ ¬v.host.IsV6 ∧ (v.host.IsDomain → v.port = none) := by
  refine ⟨fun h => ?_, fun h => agrees h.1 h.2⟩
  have h6 : ¬v.host.IsV6 := by
    intro h6
    have hcolon := Host.colon_text h6
    rw [← h.lnHost] at hcolon
    change ':' ∈ (String.ofList (List.takeWhile (· != ':') _)).toList at hcolon
    rw [String.toList_ofList] at hcolon
    exact absurd (List.all_eq_true.1 List.all_takeWhile _ hcolon) (by decide)
  refine ⟨h6, fun hdomain => ?_⟩
  obtain ⟨route, hostname, url, parts, hroute, hspec, hurl, hparse, hhost⟩ :=
    h.route hdomain "" default none
  obtain ⟨url', parts', hurl', hparse', hhost'⟩ := parse_explorerUrl h6 hdomain default none
  obtain rfl := Option.some.inj (hurl.symm.trans hurl')
  obtain rfl := Option.some.inj (hparse.symm.trans hparse')
  obtain rfl := kube_create_inj hroute
  have hname : Orchestrator.explorerHostname (Orchestrator.connect v.text).envHost (default : Uuid).shortId =
      Orchestrator.explorerHostname v.host.text (default : Uuid).shortId := by
    rw [← hhost', hhost]
    exact List.head_eq_of_cons_eq (Spec.route.inj hspec)
  have hauthority := explorerHostname_inj hname
  rw [connect_text h6] at hauthority
  have hport := congrArg String.toList hauthority
  simp only [authority, String.toList_append, String.toList_ofList] at hport
  have hport := List.append_right_eq_self.1 hport
  cases hp : v.port with
  | none => rfl
  | some digits => rw [hp] at hport; cases hport

/-- The IPv6 loopback, and a DNS name with a port. -/
def loopback6 : EnvHost :=
  ⟨some "http", .v6 "::1" [0, 0, 0, 0, 0, 0, 0, 1] (by decide), none, fun s hs => by
    obtain rfl := Option.some.inj hs
    exact List.all_eq_true.1 (by decide), nofun⟩

def ported : EnvHost where
  scheme := some "https"
  host := .domain "sandbox.example" ⟨by decide, List.all_eq_true.1 (by decide), by decide, by decide⟩
  port := some "8443".toList
  scheme_chars := fun s hs => by
    obtain rfl := Option.some.inj hs
    exact List.all_eq_true.1 (by decide)
  port_digits := fun digits hdigits => by
    obtain rfl := Option.some.inj hdigits
    exact List.all_eq_true.1 (by decide)

theorem hosts_split : ¬loopback6.Agrees ∧ ¬ported.Agrees := by
  refine ⟨fun h => absurd h.lnHost (by decide), fun h => ?_⟩
  obtain ⟨route, hostname, url, parts, hroute, hspec, hurl, hparse, hhost⟩ :=
    h.route trivial "env-000000000000" ⟨0⟩ none
  obtain rfl := kube_create_inj hroute
  obtain rfl := Option.some.inj (Eq.trans
    (show some "https://env-000000000000.sandbox.example:8443" = _ by decide) hurl)
  obtain rfl := Option.some.inj (Eq.trans
    (show some ⟨"https", "env-000000000000.sandbox.example", some 8443⟩ = _ by decide) hparse)
  obtain rfl := List.head_eq_of_cons_eq (Spec.route.inj hspec)
  exact absurd hhost (by decide)

end EnvHost

end SignetSandbox
