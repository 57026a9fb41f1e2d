import Scrumboy.Go.Errors
import Scrumboy.PublicOrigin.Authority

/-!
# The public origin and the MCP resource

A `Resolver` derives the public origin of a request from what the server trusts, and compares the
resource of an OAuth request and the `Origin` of an HTTP request with it. The origin it derives is in
canonical form, so that exactly the spellings of it are taken that differ in the letter case of
scheme and host.
-/

namespace Scrumboy.PublicOrigin

open Go (reject)
open Go (Bytes)
open Go.Bytes

/-- `/mcp/rpc`. -/
def mcpResourcePath : Bytes := [0x2F, 0x6D, 0x63, 0x70, 0x2F, 0x72, 0x70, 0x63]

/-- `/.well-known/oauth-protected-resource` and the path of the resource. -/
def mcpResourceMetadataPath : Bytes :=
  "/.well-known/oauth-protected-resource".toUTF8.toList ++ mcpResourcePath

/-- `://`. -/
def schemeMark : Bytes := [colon, slash, slash]

/-- `http`. -/
def http : Bytes := [0x68, 0x74, 0x74, 0x70]

/-- `https`. -/
def https : Bytes := http ++ [0x73]

/-- The fields of `url.URL` that are read here; `user` says whether there is any user information. -/
structure URL where
  scheme : Bytes
  opaqueText : Bytes
  user : Bool
  host : Bytes
  path : Bytes
  rawPath : Bytes
  rawQuery : Bytes
  forceQuery : Bool
  fragment : Bytes
  deriving DecidableEq

/-- What is used of the standard library. -/
structure Library where
  /-- Whether `net.ParseIP` takes a text. -/
  isIP : Bytes → Bool
  /-- Whether the address that `net.ParseIP` reads is a loopback address. -/
  isLoopback : Bytes → Bool
  parseURL : Bytes → Option URL
  /-- The scheme in the JSON text of `CF-Visitor`. -/
  visitorScheme : Bytes → Option Bytes
  /-- `strings.ToLower` of a text that is not ASCII. -/
  lowerRunes : Bytes → Bytes
  /-- `strings.EqualFold` of texts that are not both ASCII. -/
  equalFoldRunes : Bytes → Bytes → Bool

inductive OriginError
  | unavailable
  | invalidResource
  | unsupportedResourceScheme
  | invalidResourceAuthority
  | otherResource
  | invalidOrigin
  | unsupportedOriginScheme
  | invalidOriginAuthority
  deriving DecidableEq, Repr

def OriginError.text : OriginError → String
  | unavailable => "no trustworthy public origin for this request"
  | invalidResource => "invalid resource URI"
  | unsupportedResourceScheme => "unsupported resource URI scheme"
  | invalidResourceAuthority => "invalid resource URI authority"
  | otherResource => "resource does not identify this MCP server"
  | invalidOrigin => "invalid origin"
  | unsupportedOriginScheme => "unsupported origin scheme"
  | invalidOriginAuthority => "invalid origin authority"

/-- What is read of an `http.Request`. -/
structure Request where
  host : Bytes
  tls : Bool
  headerValues : String → List Bytes

structure Resolver where
  publicBaseURL : Bytes
  trustProxy : Bool

def Resolver.new (publicBaseURL : Bytes) (trustProxy : Bool) : Resolver :=
  { publicBaseURL := trimSpace publicBaseURL, trustProxy := trustProxy }

section

variable (lib : Library)

/-! ## Origins -/

def equalFold (s t : Bytes) : Bool :=
  if isAscii s && isAscii t then asciiLower s == asciiLower t else lib.equalFoldRunes s t

def isLoopbackHostname (hostname : Bytes) : Bool :=
  if equalFold lib hostname "localhost".toUTF8.toList then true
  else lib.isIP hostname && lib.isLoopback hostname

/-- What both checks of an absolute URL refuse, and `configuredOrigin` too. -/
def refusesURL (path : Bytes) (u : URL) : Bool :=
  u.scheme = [] || u.opaqueText ≠ [] || u.host = [] || u.user || u.path ≠ path || u.rawPath ≠ [] ||
    u.rawQuery ≠ [] || u.forceQuery || u.fragment ≠ []

def configuredOrigin (base : Bytes) : Except OriginError Bytes :=
  match lib.parseURL base with
  | none => .error .unavailable
  | some u => do
      reject (refusesURL [] u = true ∨ containsAny base [question, hash, percent] = true) .unavailable
      let scheme := toLower lib.lowerRunes u.scheme
      match parseHTTPAuthority lib.isIP u.host with
      | none => .error .unavailable
      | some (authority, hostname) => do
          reject (¬ (scheme = https ∨ scheme = http ∧ isLoopbackHostname lib hostname = true))
            .unavailable
          pure (scheme ++ schemeMark ++ canonicalAuthority lib.lowerRunes authority hostname)

/-- `ConfiguredOrigin`. -/
def configuredOriginTrimmed (base : Bytes) : Except OriginError Bytes :=
  configuredOrigin lib (trimSpace base)

/-- The scheme that a header gives, in lower case. -/
def schemeOf (value : Bytes) : Option Bytes :=
  let proto := toLower lib.lowerRunes (trimSpace value)
  if proto = [] ∨ comma ∈ proto then none else some proto

def forwardedScheme (req : Request) : Option Bytes :=
  let protoValues := req.headerValues "X-Forwarded-Proto"
  if protoValues ≠ [] then
    match protoValues with
    | [value] => schemeOf lib value
    | _ => none
  else
    match req.headerValues "CF-Visitor" with
    | [value] => (lib.visitorScheme value).bind (schemeOf lib)
    | _ => none

def forwardedOrigin (req : Request) : Option Bytes :=
  if forwardedScheme lib req ≠ some https then none
  else
    match req.headerValues "X-Forwarded-Host" with
    | [value] => (parseHTTPAuthority lib.isIP value).map fun a =>
        https ++ schemeMark ++ canonicalAuthority lib.lowerRunes a.1 a.2
    | _ => none

/-- `Origin` without a configured base URL. -/
def requestOrigin (trustProxy : Bool) (req : Request) : Except OriginError Bytes :=
  let forwarded := if trustProxy then forwardedOrigin lib req else none
  match parseHTTPAuthority lib.isIP req.host with
  | some (authority, hostname) =>
      if req.tls then .ok (https ++ schemeMark ++ canonicalAuthority lib.lowerRunes authority hostname)
      else
        match forwarded with
        | some origin => .ok origin
        | none =>
            if isLoopbackHostname lib hostname then
              .ok (http ++ schemeMark ++ canonicalAuthority lib.lowerRunes authority hostname)
            else .error .unavailable
  | none =>
      match forwarded with
      | some origin => .ok origin
      | none => .error .unavailable

/-- `Origin`. The resolver may be nil. -/
def Resolver.origin (r : Option Resolver) (req : Request) : Except OriginError Bytes :=
  match r with
  | none => requestOrigin lib false req
  | some r =>
      if r.publicBaseURL ≠ [] then configuredOrigin lib r.publicBaseURL
      else requestOrigin lib r.trustProxy req

def Resolver.mcpResource (r : Option Resolver) (req : Request) : Except OriginError Bytes := do
  let origin ← Resolver.origin lib r req
  pure (origin ++ mcpResourcePath)

def Resolver.mcpResourceMetadataURL (r : Option Resolver) (req : Request) :
    Except OriginError Bytes := do
  let origin ← Resolver.origin lib r req
  pure (origin ++ mcpResourceMetadataPath)

/-! ## The two checks -/

/-- The body of both checks: the canonical form of an absolute URL with this path. -/
def canonicalAbsolute (path : Bytes) (invalid unsupportedScheme invalidAuthority : OriginError)
    (raw : Bytes) : Except OriginError Bytes := do
  reject (raw = [] ∨ containsAny raw [question, hash, percent] = true ∨
    containsSpaceOrControl raw = true) invalid
  match lib.parseURL raw with
  | none => .error invalid
  | some u => do
      reject (refusesURL path u = true) invalid
      let scheme := toLower lib.lowerRunes u.scheme
      reject (scheme ≠ https ∧ scheme ≠ http) unsupportedScheme
      match parseHTTPAuthority lib.isIP u.host with
      | none => .error invalidAuthority
      | some (authority, hostname) =>
          pure (scheme ++ schemeMark ++ canonicalAuthority lib.lowerRunes authority hostname ++ path)

def canonicalAbsoluteMCPResource (raw : Bytes) : Except OriginError Bytes :=
  canonicalAbsolute lib mcpResourcePath .invalidResource .unsupportedResourceScheme
    .invalidResourceAuthority raw

def canonicalAbsoluteOrigin (raw : Bytes) : Except OriginError Bytes :=
  canonicalAbsolute lib [] .invalidOrigin .unsupportedOriginScheme .invalidOriginAuthority raw

def Resolver.validateMCPResource (r : Option Resolver) (req : Request) (raw : Bytes) :
    Except OriginError Bytes := do
  let got ← canonicalAbsoluteMCPResource lib raw
  let want ← Resolver.mcpResource lib r req
  reject (got ≠ want) .otherResource
  pure want

def Resolver.originAllowed (r : Option Resolver) (req : Request) : Except OriginError Bool :=
  match req.headerValues "Origin" with
  | [] => .ok true
  | [value] =>
      if comma ∈ value then .ok false
      else
        match canonicalAbsoluteOrigin lib value with
        | .error _ => .ok false
        | .ok got => do
            let want ← Resolver.origin lib r req
            pure (decide (got = want))
  | _ => .ok false

/-! ## Canonical origins -/

/-- The bytes of the paths that are compared with. -/
def IsPlainPath (path : Bytes) : Prop :=
  (∀ c ∈ path, c = slash ∨ isLetter c = true) ∧ (path = [] ∨ path.head? = some slash)

/-- What `url.Parse` is documented to do with an absolute URL that has no query, no fragment and no
escapes: it cuts it into scheme, authority and path, with the scheme in lower case; and a URL of a
web scheme, a valid host with its port and a plain path is one. -/
structure SplitsURLs : Prop where
  sound : ∀ raw u, lib.parseURL raw = some u →
    containsAny raw [question, hash, percent] = false → u.opaqueText = [] → u.host ≠ [] →
      u.user = false → ∃ scheme, raw = scheme ++ schemeMark ++ u.host ++ u.path ∧
        isAscii scheme = true ∧ asciiLower scheme = u.scheme
  complete : ∀ (scheme : Bytes) (a : Authority lib.isIP) (path : Bytes),
    asciiLower scheme = http ∨ asciiLower scheme = https →
      IsPlainPath path →
        lib.parseURL (scheme ++ schemeMark ++ a.text ++ path) =
          some { scheme := asciiLower scheme, opaqueText := [], user := false, host := a.text,
                 path := path, rawPath := [], rawQuery := [], forceQuery := false, fragment := [] }

variable {lib}

theorem toLower_of_ascii {s : Bytes} (h : isAscii s = true) :
    toLower lib.lowerRunes s = asciiLower s := if_pos h

/-- The canonical text of a scheme and an authority. -/
def canonicalOrigin (hip : ReadsAddresses lib.isIP) (scheme : Bytes) (a : Authority lib.isIP) : Bytes :=
  scheme ++ schemeMark ++ (a.lower hip).text

/-- A web scheme and an authority with its host in lower case. -/
def IsCanonicalOrigin (hip : ReadsAddresses lib.isIP) (origin : Bytes) : Prop :=
  ∃ scheme, (scheme = http ∨ scheme = https) ∧
    ∃ a : Authority lib.isIP, origin = canonicalOrigin hip scheme a

/-- What `canonicalAuthority` makes of an accepted text is the text of an authority in lower case. -/
theorem exists_canonicalAuthority (hip : ReadsAddresses lib.isIP) {raw authority hostname : Bytes}
    (h : parseHTTPAuthority lib.isIP raw = some (authority, hostname)) :
    ∃ a : Authority lib.isIP, a.text = raw ∧
      canonicalAuthority lib.lowerRunes authority hostname = (a.lower hip).text := by
  obtain ⟨a, rfl, rfl, rfl⟩ := Authority.exists_of_parse h
  exact ⟨a, rfl, Authority.canonicalAuthority_text hip lib.lowerRunes a⟩

theorem isCanonicalOrigin_of_parse (hip : ReadsAddresses lib.isIP)
    {raw authority hostname scheme : Bytes}
    (h : parseHTTPAuthority lib.isIP raw = some (authority, hostname))
    (hscheme : scheme = http ∨ scheme = https) :
    IsCanonicalOrigin hip
      (scheme ++ schemeMark ++ canonicalAuthority lib.lowerRunes authority hostname) := by
  obtain ⟨a, -, hcanonical⟩ := exists_canonicalAuthority hip h
  rw [hcanonical]
  exact ⟨scheme, hscheme, a, rfl⟩

theorem forwardedOrigin_isCanonical (hip : ReadsAddresses lib.isIP) {req : Request} {origin : Bytes}
    (h : forwardedOrigin lib req = some origin) : IsCanonicalOrigin hip origin := by
  unfold forwardedOrigin at h
  split at h
  · cases h
  · split at h
    · obtain ⟨⟨authority, hostname⟩, hparse, rfl⟩ := Option.map_eq_some_iff.mp h
      exact isCanonicalOrigin_of_parse hip hparse (.inr rfl)
    · cases h

theorem requestOrigin_isCanonical (hip : ReadsAddresses lib.isIP) {trustProxy : Bool} {req : Request}
    {origin : Bytes} (h : requestOrigin lib trustProxy req = .ok origin) :
    IsCanonicalOrigin hip origin := by
  have hforwarded : ∀ origin, (if trustProxy then forwardedOrigin lib req else none) = some origin →
      IsCanonicalOrigin hip origin := by
    intro origin horigin
    cases trustProxy with
    | false => cases horigin
    | true => exact forwardedOrigin_isCanonical hip horigin
  unfold requestOrigin at h
  generalize (if trustProxy then forwardedOrigin lib req else none) = forwarded at h hforwarded
  cases hparse : parseHTTPAuthority lib.isIP req.host with
  | none =>
      rw [hparse] at h
      cases forwarded with
      | none => cases h
      | some origin' =>
          cases h
          exact hforwarded _ rfl
  | some a =>
      obtain ⟨authority, hostname⟩ := a
      rw [hparse] at h
      by_cases htls : req.tls = true
      · simp only [if_pos htls] at h
        cases h
        exact isCanonicalOrigin_of_parse hip hparse (.inr rfl)
      · simp only [if_neg htls] at h
        cases forwarded with
        | some origin' =>
            cases h
            exact hforwarded _ rfl
        | none =>
            by_cases hloop : isLoopbackHostname lib hostname = true
            · simp only [if_pos hloop] at h
              cases h
              exact isCanonicalOrigin_of_parse hip hparse (.inl rfl)
            · simp only [if_neg hloop] at h
              cases h

theorem configuredOrigin_isCanonical (hip : ReadsAddresses lib.isIP) {base origin : Bytes}
    (h : configuredOrigin lib base = .ok origin) : IsCanonicalOrigin hip origin := by
  unfold configuredOrigin at h
  cases hurl : lib.parseURL base with
  | none =>
      rw [hurl] at h
      cases h
  | some u =>
      rw [hurl] at h
      simp only [Go.bind_eq_ok, Go.reject_eq_ok] at h
      obtain ⟨_, -, h⟩ := h
      cases hparse : parseHTTPAuthority lib.isIP u.host with
      | none =>
          rw [hparse] at h
          cases h
      | some a =>
          obtain ⟨authority, hostname⟩ := a
          rw [hparse] at h
          simp only [Go.bind_eq_ok, Go.reject_eq_ok, Go.pure_eq_ok, not_not] at h
          obtain ⟨_, hscheme, rfl⟩ := h
          exact isCanonicalOrigin_of_parse hip hparse (hscheme.symm.imp_left And.left)

/-- Every origin that a resolver derives is in canonical form. -/
theorem origin_isCanonical (hip : ReadsAddresses lib.isIP) {r : Option Resolver} {req : Request}
    {origin : Bytes} (h : Resolver.origin lib r req = .ok origin) : IsCanonicalOrigin hip origin := by
  unfold Resolver.origin at h
  cases r with
  | none => exact requestOrigin_isCanonical hip h
  | some r =>
      simp only at h
      by_cases hbase : r.publicBaseURL ≠ []
      · simp only [if_pos hbase] at h
        exact configuredOrigin_isCanonical hip h
      · simp only [if_neg hbase] at h
        exact requestOrigin_isCanonical hip h

/-! ## Spellings of a URL -/

theorem isPlainPath_mcpResourcePath : IsPlainPath mcpResourcePath := by
  have hbytes : mcpResourcePath.all (fun c => c == slash || isLetter c) = true := by decide
  refine ⟨fun c hc => ?_, .inr rfl⟩
  have hc := List.all_eq_true.mp hbytes c hc
  rwa [Bool.or_eq_true, beq_iff_eq] at hc

theorem isPlainPath_nil : IsPlainPath [] := ⟨by simp, .inl rfl⟩

theorem letter_facts {c : UInt8} (h : c = slash ∨ isLetter c = true) :
    IsGraphic c ∧ c ∉ [question, hash, percent] := by
  obtain ⟨n, rfl⟩ := exists_ofFin c
  revert n
  decide +kernel

theorem schemeMark_facts : ∀ c ∈ schemeMark, IsGraphic c ∧ c ∉ [question, hash, percent] ∧
    isLetter c = false := by
  intro c hc
  simp only [schemeMark, List.mem_cons, List.not_mem_nil, or_false] at hc
  rcases hc with rfl | rfl | rfl
  · decide
  · decide
  · decide

theorem refusesURL_eq_false {path : Bytes} {u : URL} : refusesURL path u = false ↔
    u.scheme ≠ [] ∧ u.opaqueText = [] ∧ u.host ≠ [] ∧ u.user = false ∧ u.path = path ∧
      u.rawPath = [] ∧ u.rawQuery = [] ∧ u.forceQuery = false ∧ u.fragment = [] := by
  simp only [refusesURL, Bool.or_eq_false_iff, decide_eq_false_iff_not, not_not, ne_eq, and_assoc]

variable {path raw canonical : Bytes} {invalid unsupported badAuthority : OriginError}

/-- What a check of an absolute URL accepts is a web scheme, an authority and the path. -/
theorem exists_of_canonicalAbsolute (hip : ReadsAddresses lib.isIP) (hurl : SplitsURLs lib)
    (h : canonicalAbsolute lib path invalid unsupported badAuthority raw = .ok canonical) :
    ∃ (scheme : Bytes) (a : Authority lib.isIP),
      (asciiLower scheme = http ∨ asciiLower scheme = https) ∧
        raw = scheme ++ schemeMark ++ a.text ++ path ∧
          canonical = canonicalOrigin hip (asciiLower scheme) a ++ path := by
  unfold canonicalAbsolute at h
  simp only [Go.bind_eq_ok, Go.reject_eq_ok] at h
  obtain ⟨_, hraw, h⟩ := h
  rw [not_or, not_or, Bool.not_eq_true] at hraw
  cases hparse : lib.parseURL raw with
  | none =>
      rw [hparse] at h
      cases h
  | some u =>
      rw [hparse] at h
      simp only [Go.bind_eq_ok, Go.reject_eq_ok, Bool.not_eq_true, refusesURL_eq_false] at h
      obtain ⟨_, ⟨-, hopaque, hhost, huser, rfl, -⟩, _, hscheme, h⟩ := h
      obtain ⟨scheme, rfl, hascii, hlower⟩ := hurl.sound _ _ hparse hraw.2.1 hopaque hhost huser
      rw [← hlower, toLower_of_ascii (isAscii_asciiLower hascii), asciiLower_asciiLower] at hscheme h
      cases hauthority : parseHTTPAuthority lib.isIP u.host with
      | none =>
          rw [hauthority] at h
          cases h
      | some parts =>
          obtain ⟨authority, hostname⟩ := parts
          rw [hauthority] at h
          obtain ⟨a, ha, hcanonical⟩ := exists_canonicalAuthority hip hauthority
          refine ⟨scheme, a, ?_, by rw [ha], ?_⟩
          · rw [not_and_or, not_not, not_not] at hscheme
            exact hscheme.symm
          · simp only [Go.pure_eq_ok] at h
            rw [← h, hcanonical, canonicalOrigin]

theorem isLetter_of_lower {c : UInt8} (h : isLetter (lowerByte c) = true) : isLetter c = true := by
  obtain ⟨n, rfl⟩ := exists_ofFin c
  revert n
  decide +kernel

theorem isLetter_of_webScheme {scheme : Bytes}
    (h : asciiLower scheme = http ∨ asciiLower scheme = https) : ∀ c ∈ scheme, isLetter c = true := by
  have hweb : ∀ c ∈ http ++ https, isLetter c = true := List.all_eq_true.mp (by decide)
  intro c hc
  refine isLetter_of_lower (hweb _ (List.mem_append.mpr ?_))
  have hmem : lowerByte c ∈ asciiLower scheme := List.mem_map_of_mem hc
  rcases h with heq | heq
  · exact .inl (heq ▸ hmem)
  · exact .inr (heq ▸ hmem)

/-- A spelling of a URL has no byte that a check refuses. -/
theorem spelling_bytes (hip : ReadsAddresses lib.isIP) (hpath : IsPlainPath path) {scheme : Bytes}
    (a : Authority lib.isIP) (hscheme : asciiLower scheme = http ∨ asciiLower scheme = https) :
    ∀ c ∈ scheme ++ schemeMark ++ a.text ++ path, IsGraphic c ∧ c ∉ [question, hash, percent] := by
  intro c hc
  simp only [List.mem_append] at hc
  rcases hc with ((hc | hc) | hc) | hc
  · exact letter_facts (.inr (isLetter_of_webScheme hscheme c hc))
  · exact ⟨(schemeMark_facts c hc).1, (schemeMark_facts c hc).2.1⟩
  · obtain ⟨hgraphic, hallowed⟩ := a.bytes hip c hc
    refine ⟨hgraphic, fun hbad => hallowed ?_⟩
    simp only [List.mem_cons, List.not_mem_nil, or_false] at hbad
    rcases hbad with rfl | rfl | rfl
    · decide
    · decide
    · decide
  · exact letter_facts (hpath.1 c hc)

/-- A check of an absolute URL accepts every spelling of it. -/
theorem canonicalAbsolute_eq_ok (hip : ReadsAddresses lib.isIP) (hurl : SplitsURLs lib)
    (hpath : IsPlainPath path) {scheme : Bytes} (a : Authority lib.isIP)
    (hscheme : asciiLower scheme = http ∨ asciiLower scheme = https) :
    canonicalAbsolute lib path invalid unsupported badAuthority
        (scheme ++ schemeMark ++ a.text ++ path) =
      .ok (canonicalOrigin hip (asciiLower scheme) a ++ path) := by
  have hbytes := spelling_bytes hip hpath a hscheme
  have hpass : ¬ (scheme ++ schemeMark ++ a.text ++ path = [] ∨
      containsAny (scheme ++ schemeMark ++ a.text ++ path) [question, hash, percent] = true ∨
        containsSpaceOrControl (scheme ++ schemeMark ++ a.text ++ path) = true) := by
    rw [not_or, not_or, Bool.not_eq_true, Bool.not_eq_true]
    refine ⟨?_, ?_, containsSpaceOrControl_of_graphic fun c hc => (hbytes c hc).1⟩
    · simp [a.text_ne_nil]
    · rw [containsAny, List.any_eq_false]
      intro c hc
      rw [List.contains_iff_mem]
      exact (hbytes c hc).2
  have hne : asciiLower scheme ≠ [] := by
    intro hnil
    rw [hnil] at hscheme
    rcases hscheme with hhttp | hhttps
    · cases hhttp
    · cases hhttps
  have hrefuses : ¬ (refusesURL path
      { scheme := asciiLower scheme, opaqueText := [], user := false, host := a.text, path := path,
        rawPath := [], rawQuery := [], forceQuery := false, fragment := [] } = true) := by
    rw [Bool.not_eq_true, refusesURL_eq_false]
    exact ⟨hne, rfl, a.text_ne_nil, rfl, rfl, rfl, rfl, rfl, rfl⟩
  have hascii : toLower lib.lowerRunes (asciiLower scheme) = asciiLower scheme := by
    rw [toLower_of_ascii, asciiLower_asciiLower]
    refine isAscii_asciiLower (List.all_eq_true.mpr fun c hc => decide_eq_true ?_)
    exact (letter_facts (.inr (isLetter_of_webScheme hscheme c hc))).1.1.2
  have hweb : ¬ (asciiLower scheme ≠ https ∧ asciiLower scheme ≠ http) := by
    rw [not_and_or, not_not, not_not]
    exact hscheme.symm
  rw [canonicalAbsolute, Go.reject_bind_of_not hpass, hurl.complete _ a _ hscheme hpath]
  simp only [Go.reject_bind_of_not hrefuses, hascii, Go.reject_bind_of_not hweb, a.parse_text hip,
    Authority.canonicalAuthority_text hip]
  rfl

/-- A canonical origin and its spellings. -/
theorem exists_of_asciiLower_eq_origin (hip : ReadsAddresses lib.isIP) {o origin : Bytes}
    (horigin : IsCanonicalOrigin hip origin) (h : asciiLower o = origin) :
    ∃ (scheme : Bytes) (a : Authority lib.isIP),
      (asciiLower scheme = http ∨ asciiLower scheme = https) ∧
        o = scheme ++ schemeMark ++ a.text ∧ origin = canonicalOrigin hip (asciiLower scheme) a := by
  obtain ⟨scheme₀, hscheme, a₀, rfl⟩ := horigin
  obtain ⟨front, text, rfl, hfront, htext⟩ := List.map_eq_append_iff.mp h
  obtain ⟨scheme, mark, rfl, rfl, hmark⟩ := List.map_eq_append_iff.mp hfront
  obtain rfl : mark = schemeMark :=
    eq_of_asciiLower_eq (fun c hc => (schemeMark_facts c hc).2.2) hmark
  obtain ⟨a, rfl, ha⟩ := Authority.exists_of_asciiLower_eq hip htext
  exact ⟨scheme, a, hscheme, rfl, by rw [canonicalOrigin, canonicalOrigin, ha, asciiLower]⟩

theorem canonicalAbsolute_eq_ok_iff (hip : ReadsAddresses lib.isIP) (hurl : SplitsURLs lib)
    (hpath : IsPlainPath path) {origin : Bytes} (horigin : IsCanonicalOrigin hip origin) :
    canonicalAbsolute lib path invalid unsupported badAuthority raw = .ok (origin ++ path) ↔
      ∃ o, raw = o ++ path ∧ asciiLower o = origin := by
  constructor
  · intro h
    obtain ⟨scheme, a, hscheme, rfl, hcanonical⟩ := exists_of_canonicalAbsolute hip hurl h
    refine ⟨scheme ++ schemeMark ++ a.text, rfl, ?_⟩
    rw [List.append_cancel_right hcanonical, canonicalOrigin, a.text_lower hip, asciiLower_append,
      asciiLower_append]
    exact congrArg (asciiLower scheme ++ · ++ asciiLower a.text) rfl
  · rintro ⟨o, rfl, ho⟩
    obtain ⟨scheme, a, hscheme, rfl, rfl⟩ := exists_of_asciiLower_eq_origin hip horigin ho
    exact canonicalAbsolute_eq_ok hip hurl hpath a hscheme

/-! ## The two checks -/

theorem validateMCPResource_eq_ok_iff (hip : ReadsAddresses lib.isIP) (hurl : SplitsURLs lib)
    {r : Option Resolver} {req : Request} {raw want : Bytes} :
    Resolver.validateMCPResource lib r req raw = .ok want ↔
      ∃ origin, Resolver.origin lib r req = .ok origin ∧ want = origin ++ mcpResourcePath ∧
        ∃ o, raw = o ++ mcpResourcePath ∧ asciiLower o = origin := by
  simp only [Resolver.validateMCPResource, Resolver.mcpResource, Go.bind_eq_ok, Go.reject_eq_ok,
    Go.pure_eq_ok, not_not]
  constructor
  · rintro ⟨got, hgot, _, ⟨origin, horigin, rfl⟩, _, rfl, rfl⟩
    have hcanonical := origin_isCanonical hip horigin
    exact ⟨origin, horigin, rfl,
      (canonicalAbsolute_eq_ok_iff hip hurl isPlainPath_mcpResourcePath hcanonical).mp hgot⟩
  · rintro ⟨origin, horigin, rfl, hraw⟩
    have hcanonical := origin_isCanonical hip horigin
    exact ⟨_, (canonicalAbsolute_eq_ok_iff hip hurl isPlainPath_mcpResourcePath hcanonical).mpr hraw, _,
      ⟨origin, horigin, rfl⟩, (), rfl, rfl⟩

/-- `2001:db8::1`. -/
def oneAddress : Bytes := [0x32, 0x30, 0x30, 0x31, 0x3A, 0x64, 0x62, 0x38, 0x3A, 0x3A, 0x31]

/-- Cuts a URL at its first colon and at the first slash behind the authority. -/
def splitURL (raw : Bytes) : Option URL :=
  let scheme := raw.takeWhile (· != colon)
  let rest := raw.dropWhile (· != colon)
  if isAscii scheme = true ∧ rest.take 3 = schemeMark then
    some { scheme := asciiLower scheme, opaqueText := [], user := false,
           host := (rest.drop 3).takeWhile (· != slash), path := (rest.drop 3).dropWhile (· != slash),
           rawPath := [], rawQuery := [], forceQuery := false, fragment := [] }
  else none

def oneAddressLibrary : Library where
  isIP s := asciiLower s == oneAddress
  isLoopback _ := false
  parseURL := splitURL
  visitorScheme _ := none
  lowerRunes s := s
  equalFoldRunes _ _ := false

theorem readsAddresses_oneAddress : ReadsAddresses oneAddressLibrary.isIP where
  lower s := congrArg (· == oneAddress) (asciiLower_asciiLower s)
  bytes := by
    intro s hs c hc
    have hlower : asciiLower s = oneAddress := eq_of_beq hs
    have hmem : lowerByte c ∈ oneAddress := hlower ▸ List.mem_map_of_mem hc
    have hbytes : oneAddress.all (fun b => (0x30 ≤ b && b ≤ 0x3A) || (0x61 ≤ b && b ≤ 0x66)) = true := by
      decide
    have hbyte := List.all_eq_true.mp hbytes _ hmem
    grind [lowerByte, hexValue, colon]

/-- A list is cut where a test fails for the first time. -/
theorem span_append {p : UInt8 → Bool} {s t : Bytes} (hs : ∀ c ∈ s, p c = true)
    (ht : ∀ c, t.head? = some c → p c = false) :
    (s ++ t).takeWhile p = s ∧ (s ++ t).dropWhile p = t := by
  rw [List.takeWhile_append_of_pos hs, List.dropWhile_append_of_pos hs]
  cases t with
  | nil => simp
  | cons c t => simp [ht c rfl]

theorem splitsURLs_oneAddress : SplitsURLs oneAddressLibrary where
  sound := by
    intro raw u hu _ _ _ _
    have hu' : splitURL raw = some u := hu
    rw [splitURL] at hu'
    simp only [Option.ite_none_right_eq_some, Option.some.injEq] at hu'
    obtain ⟨⟨hascii, hmark⟩, rfl⟩ := hu'
    refine ⟨raw.takeWhile (· != colon), ?_, hascii, rfl⟩
    rw [List.append_assoc, List.takeWhile_append_dropWhile, ← hmark, List.append_assoc,
      List.take_append_drop, List.takeWhile_append_dropWhile]
  complete := by
    intro scheme a path hscheme hpath
    have hletters := isLetter_of_webScheme hscheme
    have hascii : isAscii scheme = true := List.all_eq_true.mpr fun c hc =>
      decide_eq_true (letter_facts (.inr (hletters c hc))).1.1.2
    have hcolon : ∀ c ∈ scheme, (c != colon) = true := by
      intro c hc
      rw [bne_iff_ne]
      rintro rfl
      exact absurd (hletters _ hc) (by decide)
    have hslash : ∀ c ∈ a.text, (c != slash) = true := by
      intro c hc
      rw [bne_iff_ne]
      rintro rfl
      exact (a.bytes readsAddresses_oneAddress _ hc).2 (by decide)
    have hcut := span_append (t := schemeMark ++ (a.text ++ path)) hcolon (by
      intro c hc
      obtain rfl : colon = c := Option.some.inj hc
      rfl)
    have hspan := span_append (t := path) hslash (by
      intro c hc
      rcases hpath.2 with rfl | hhead
      · cases hc
      · obtain rfl : slash = c := Option.some.inj (hhead.symm.trans hc)
        rfl)
    have hmark : (schemeMark ++ (a.text ++ path)).take 3 = schemeMark :=
      List.take_left' rfl
    have hrest : (schemeMark ++ (a.text ++ path)).drop 3 = a.text ++ path :=
      List.drop_left' rfl
    have hraw : scheme ++ schemeMark ++ a.text ++ path =
        scheme ++ (schemeMark ++ (a.text ++ path)) := by
      simp only [List.append_assoc]
    rw [hraw]
    refine (if_pos (by rw [hcut.1, hcut.2]; exact ⟨hascii, hmark⟩)).trans ?_
    rw [hcut.1, hcut.2, hrest, hspan.1, hspan.2]

/-- A request over TLS to a bracketed address. -/
def tlsRequest : Request where
  host := "[2001:db8::1]:8443".toUTF8.toList
  tls := true
  headerValues _ := []

end

end Scrumboy.PublicOrigin
