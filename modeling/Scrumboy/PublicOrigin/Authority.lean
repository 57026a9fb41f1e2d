import Scrumboy.Go.Ascii

/-!
# Authorities of a public origin

`ParseHTTPAuthority` takes a host and a port, and `canonicalAuthority` writes them with the host in
lower case. An `Authority` is what the parser accepts, as its parts: each accepted text is the text
of one authority, and the canonical text is the text of the same authority with its host in lower
case.
-/

set_option linter.dupNamespace false

namespace Scrumboy.PublicOrigin

open Go (Bytes)
open Go.Bytes

def openBracket : UInt8 := 0x5B

def closeBracket : UInt8 := 0x5D

def atSign : UInt8 := 0x40

def comma : UInt8 := 0x2C

/-- The bytes that no authority contains. -/
def forbidden : Bytes := [comma, slash, question, hash, atSign, percent, backslash]

/-! ## The parser -/

/-- `containsSpaceOrControl`. -/
def containsSpaceOrControl (raw : Bytes) : Bool := raw.tails.any startsSpaceOrControl

theorem containsSpaceOrControl_of_graphic {s : Bytes} (h : ∀ c ∈ s, IsGraphic c) :
    containsSpaceOrControl s = false := by
  induction s with
  | nil => rfl
  | cons a s ih =>
      have htail := ih fun c hc => h c (List.mem_cons_of_mem _ hc)
      rw [containsSpaceOrControl] at htail ⊢
      rw [List.tails, List.any_cons, htail,
        startsSpaceOrControl_of_graphic (h a List.mem_cons_self), Bool.or_false]

/-- `validPort`. A byte that is no first byte of a character is behind one that is no digit. -/
def validPort (raw : Bytes) : Bool :=
  if raw = [] ∨ raw.all isDecimal = false then false
  else
    match atoi raw with
    | none => false
    | some port => decide (1 ≤ port ∧ port ≤ 65535)

def isLetter (c : UInt8) : Bool := (0x61 ≤ c && c ≤ 0x7A) || (0x41 ≤ c && c ≤ 0x5A)

/-- The marks that a registered name may contain. -/
def regNameMarks : Bytes :=
  [0x2D, 0x2E, 0x5F, 0x7E, 0x21, 0x24, 0x26, 0x27, 0x28, 0x29, 0x2A, 0x2B, 0x3B, 0x3D]

def isRegNameByte (c : UInt8) : Bool := isLetter c || isDecimal c || regNameMarks.contains c

/-- `validRegName`. -/
def validRegName (raw : Bytes) : Bool := raw.all isRegNameByte

/-- The part of `ParseHTTPAuthority` for an address in brackets. -/
def parseBracketed (isIP : Bytes → Bool) (raw : Bytes) : Option (Bytes × Bytes) :=
  match indexByte raw closeBracket with
  | none => none
  | some close =>
      if close ≤ 1 then none
      else
        let hostname := (raw.take close).drop 1
        if isIP hostname = false ∨ colon ∉ hostname then none
        else
          let remainder := raw.drop (close + 1)
          if remainder = [] then some (raw, hostname)
          else if remainder.head? ≠ some colon ∨ validPort (remainder.drop 1) = false then none
          else some (raw, hostname)

/-- The part of `ParseHTTPAuthority` for a name or an address without brackets. -/
def parseNamed (raw : Bytes) : Option (Bytes × Bytes) :=
  if openBracket ∈ raw ∨ closeBracket ∈ raw ∨ 1 < raw.count colon then none
  else
    match lastIndexByte raw colon with
    | none => if raw = [] ∨ validRegName raw = false then none else some (raw, raw)
    | some i =>
        if validPort (raw.drop (i + 1)) = false then none
        else if raw.take i = [] ∨ validRegName (raw.take i) = false then none
        else some (raw, raw.take i)

/-- `ParseHTTPAuthority`: the authority and its host name. `isIP` says whether `net.ParseIP` takes a
text. -/
def parseHTTPAuthority (isIP : Bytes → Bool) (raw : Bytes) : Option (Bytes × Bytes) :=
  if raw = [] ∨ containsSpaceOrControl raw = true ∨ containsAny raw forbidden = true then none
  else if raw.head? = some openBracket then parseBracketed isIP raw
  else parseNamed raw

/-- `strings.ToLower`; `lowerRunes` is what it does with a text that is not ASCII. -/
def toLower (lowerRunes : Bytes → Bytes) (s : Bytes) : Bytes :=
  if isAscii s then asciiLower s else lowerRunes s

/-- `canonicalAuthority`. -/
def canonicalAuthority (lowerRunes : Bytes → Bytes) (authority hostname : Bytes) : Bytes :=
  let host := toLower lowerRunes hostname
  if authority.head? = some openBracket then
    match indexByte authority closeBracket with
    | none => openBracket :: host ++ closeBracket :: authority
    | some close => openBracket :: host ++ closeBracket :: authority.drop (close + 1)
  else
    match lastIndexByte authority colon with
    | none => host
    | some i => host ++ authority.drop i

/-- What follows the host of an authority: its port behind a colon, or nothing. -/
def portText (authority : Bytes) : Bytes :=
  if authority.head? = some openBracket then
    match indexByte authority closeBracket with
    | none => []
    | some close => authority.drop (close + 1)
  else
    match lastIndexByte authority colon with
    | none => []
    | some i => authority.drop i

/-! ## Authorities -/

/-- What `net.ParseIP` is documented to do: an address consists of hexadecimal digits, dots and
colons, and the letter case of its digits does not matter. -/
structure ReadsAddresses (isIP : Bytes → Bool) : Prop where
  lower : ∀ s, isIP (asciiLower s) = isIP s
  bytes : ∀ s, isIP s = true → ∀ c ∈ s, (hexValue c).isSome = true ∨ c = dot ∨ c = colon

inductive Host (isIP : Bytes → Bool)
  | regName (name : Bytes) (ne_nil : name ≠ []) (valid : validRegName name = true)
  | ipLiteral (address : Bytes) (isIP : isIP address = true) (colon : colon ∈ address)

def IsPortText (port : Bytes) : Prop :=
  port = [] ∨ ∃ digits, port = colon :: digits ∧ validPort digits = true

/-- A host and the text of a port, which may be missing. -/
structure Authority (isIP : Bytes → Bool) where
  host : Host isIP
  port : Bytes
  isPort : IsPortText port

section

variable {isIP : Bytes → Bool}

def Host.name : Host isIP → Bytes
  | regName name _ _ => name
  | ipLiteral address _ _ => address

def Host.text : Host isIP → Bytes
  | regName name _ _ => name
  | ipLiteral address _ _ => openBracket :: address ++ [closeBracket]

def Authority.text (a : Authority isIP) : Bytes := a.host.text ++ a.port

/-! ## Bytes of an authority -/

/-- What every byte of an authority satisfies. -/
def IsAuthorityByte (c : UInt8) : Prop := IsGraphic c ∧ c ∉ forbidden

theorem mem_regNameMarks {c : UInt8} : regNameMarks.contains c = true ↔ c = 0x2D ∨ c = 0x2E ∨
    c = 0x5F ∨ c = 0x7E ∨ c = 0x21 ∨ c = 0x24 ∨ c = 0x26 ∨ c = 0x27 ∨ c = 0x28 ∨ c = 0x29 ∨
      c = 0x2A ∨ c = 0x2B ∨ c = 0x3B ∨ c = 0x3D := by
  simp [regNameMarks]

theorem isLetter_facts {c : UInt8} (h : isLetter c = true) :
    IsAuthorityByte c ∧ c ≠ colon ∧ c ≠ openBracket ∧ c ≠ closeBracket := by
  unfold IsAuthorityByte
  obtain ⟨n, rfl⟩ := exists_ofFin c
  revert n
  decide +kernel

theorem isDecimal_facts {c : UInt8} (h : isDecimal c = true) :
    IsAuthorityByte c ∧ c ≠ colon ∧ c ≠ openBracket ∧ c ≠ closeBracket ∧ lowerByte c = c ∧
      isLetter c = false := by
  unfold IsAuthorityByte
  obtain ⟨n, rfl⟩ := exists_ofFin c
  revert n
  decide +kernel

theorem isRegNameByte_facts {c : UInt8} (h : isRegNameByte c = true) :
    IsAuthorityByte c ∧ c ≠ colon ∧ c ≠ openBracket ∧ c ≠ closeBracket := by
  simp only [isRegNameByte, Bool.or_eq_true, mem_regNameMarks] at h
  rcases h with (hletter | hdigit) | hmark
  · exact isLetter_facts hletter
  · obtain ⟨hbyte, hcolon, hopen, hclose, -⟩ := isDecimal_facts hdigit
    exact ⟨hbyte, hcolon, hopen, hclose⟩
  · unfold IsAuthorityByte
    rcases hmark with rfl | rfl | rfl | rfl | rfl | rfl | rfl | rfl | rfl | rfl | rfl | rfl | rfl | rfl <;>
      decide

theorem isRegNameByte_lowerByte {c : UInt8} :
    isRegNameByte (lowerByte c) = true ↔ isRegNameByte c = true := by
  unfold lowerByte
  split_ifs with hupper
  · have hletter : isLetter c = true := by grind [isLetter]
    have hlower : isLetter (c + 0x20) = true := by grind [isLetter]
    simp [isRegNameByte, hletter, hlower]
  · rfl

theorem addressByte_facts {c : UInt8} (h : (hexValue c).isSome = true ∨ c = dot ∨ c = colon) :
    IsAuthorityByte c ∧ c ≠ openBracket ∧ c ≠ closeBracket := by
  unfold IsAuthorityByte
  obtain ⟨n, rfl⟩ := exists_ofFin c
  revert n
  decide +kernel

theorem lowerByte_eq_colon {c : UInt8} : lowerByte c = colon ↔ c = colon := by
  grind [lowerByte, colon]

theorem isDecimal_of_validPort {digits : Bytes} (h : validPort digits = true) :
    ∀ c ∈ digits, isDecimal c = true := by
  rw [validPort] at h
  by_cases hbad : digits = [] ∨ digits.all isDecimal = false
  · rw [if_pos hbad] at h
    cases h
  · rw [not_or, Bool.not_eq_false] at hbad
    exact List.all_eq_true.mp hbad.2

theorem IsPortText.bytes {port : Bytes} (h : IsPortText port) :
    ∀ c ∈ port, c = colon ∨ isDecimal c = true := by
  rcases h with rfl | ⟨digits, rfl, hvalid⟩
  · simp
  · intro c hc
    rcases List.mem_cons.mp hc with rfl | hc
    · exact .inl rfl
    · exact .inr (isDecimal_of_validPort hvalid c hc)

theorem isAuthorityByte_of_port {port : Bytes} (h : IsPortText port) :
    ∀ c ∈ port, IsAuthorityByte c ∧ c ≠ openBracket ∧ c ≠ closeBracket ∧ lowerByte c = c := by
  intro c hc
  rcases h.bytes c hc with rfl | hdigit
  · unfold IsAuthorityByte
    decide
  · obtain ⟨hbyte, -, hopen, hclose, hlower, -⟩ := isDecimal_facts hdigit
    exact ⟨hbyte, hopen, hclose, hlower⟩

namespace Host

theorem bytes (hip : ReadsAddresses isIP) (host : Host isIP) :
    ∀ c ∈ host.name, IsAuthorityByte c ∧ c ≠ openBracket ∧ c ≠ closeBracket := by
  cases host with
  | regName name hne hvalid =>
      intro c hc
      obtain ⟨hbyte, -, hopen, hclose⟩ := isRegNameByte_facts (List.all_eq_true.mp hvalid c hc)
      exact ⟨hbyte, hopen, hclose⟩
  | ipLiteral address haddress hcolon =>
      exact fun c hc => addressByte_facts (hip.bytes _ haddress c hc)

theorem text_bytes (hip : ReadsAddresses isIP) (host : Host isIP) :
    ∀ c ∈ host.text, IsAuthorityByte c := by
  cases host with
  | regName name hne hvalid => exact fun c hc => ((regName name hne hvalid).bytes hip c hc).1
  | ipLiteral address haddress hcolon =>
      intro c hc
      rw [text, List.mem_append, List.mem_cons, List.mem_singleton] at hc
      rcases hc with (rfl | hc) | rfl
      · unfold IsAuthorityByte
        decide
      · exact ((ipLiteral address haddress hcolon).bytes hip c hc).1
      · unfold IsAuthorityByte
        decide

theorem colon_notMem_regName {name : Bytes} (h : validRegName name = true) : colon ∉ name :=
  fun hc => (isRegNameByte_facts (List.all_eq_true.mp h _ hc)).2.1 rfl

theorem openBracket_notMem_regName {name : Bytes} (h : validRegName name = true) :
    openBracket ∉ name :=
  fun hc => (isRegNameByte_facts (List.all_eq_true.mp h _ hc)).2.2.1 rfl

theorem closeBracket_notMem_regName {name : Bytes} (h : validRegName name = true) :
    closeBracket ∉ name :=
  fun hc => (isRegNameByte_facts (List.all_eq_true.mp h _ hc)).2.2.2 rfl

theorem closeBracket_notMem_address (hip : ReadsAddresses isIP) {address : Bytes}
    (h : isIP address = true) : closeBracket ∉ address :=
  fun hc => (addressByte_facts (hip.bytes _ h _ hc)).2.2 rfl

/-- A host is known from its name: only an address has a colon. -/
theorem name_injective {a b : Host isIP} (h : a.name = b.name) : a = b := by
  cases a with
  | regName name hne hvalid =>
      cases b with
      | regName name' hne' hvalid' =>
          obtain rfl : name = name' := h
          rfl
      | ipLiteral address haddress hcolon =>
          obtain rfl : name = address := h
          exact absurd hcolon (colon_notMem_regName hvalid)
  | ipLiteral address haddress hcolon =>
      cases b with
      | regName name hne hvalid =>
          obtain rfl : address = name := h
          exact absurd hcolon (colon_notMem_regName hvalid)
      | ipLiteral address' haddress' hcolon' =>
          obtain rfl : address = address' := h
          rfl

end Host

/-! ## What the parser accepts -/

namespace Authority

theorem bytes (hip : ReadsAddresses isIP) (a : Authority isIP) : ∀ c ∈ a.text, IsAuthorityByte c := by
  intro c hc
  rw [text, List.mem_append] at hc
  rcases hc with hc | hc
  · exact a.host.text_bytes hip c hc
  · exact (isAuthorityByte_of_port a.isPort c hc).1

theorem text_ne_nil (a : Authority isIP) : a.text ≠ [] := by
  obtain ⟨host, port, hport⟩ := a
  cases host with
  | regName name hne hvalid => exact fun h => hne (List.append_eq_nil_iff.mp h).1
  | ipLiteral address haddress hcolon => exact List.cons_ne_nil _ _

theorem containsSpaceOrControl_text (hip : ReadsAddresses isIP) (a : Authority isIP) :
    containsSpaceOrControl a.text = false :=
  containsSpaceOrControl_of_graphic fun c hc => (a.bytes hip c hc).1

theorem containsAny_text (hip : ReadsAddresses isIP) (a : Authority isIP) :
    containsAny a.text forbidden = false := by
  rw [containsAny, List.any_eq_false]
  intro c hc
  rw [List.contains_iff_mem]
  exact (a.bytes hip c hc).2

theorem indexByte_ipLiteral {address port : Bytes} (hclose : closeBracket ∉ address) :
    indexByte (openBracket :: address ++ [closeBracket] ++ port) closeBracket =
      some (address.length + 1) := by
  rw [List.append_assoc]
  refine indexByte_append ?_
  rw [List.mem_cons, not_or]
  exact ⟨by decide, hclose⟩

theorem drop_ipLiteral (address port : Bytes) :
    (openBracket :: address ++ [closeBracket] ++ port).drop (address.length + 1 + 1) = port :=
  List.drop_left' (by simp)

theorem head_regName {name port : Bytes} (hne : name ≠ []) (hvalid : validRegName name = true) :
    (name ++ port).head? ≠ some openBracket := by
  obtain ⟨c, name, rfl⟩ := List.exists_cons_of_ne_nil hne
  rintro hc
  obtain rfl : c = openBracket := Option.some.inj hc
  exact Host.openBracket_notMem_regName hvalid List.mem_cons_self

theorem lastIndexByte_regName {name digits : Bytes} (hdigits : validPort digits = true) :
    lastIndexByte (name ++ colon :: digits) colon = some name.length :=
  lastIndexByte_append fun hc => (isDecimal_facts (isDecimal_of_validPort hdigits _ hc)).2.1 rfl

theorem parseBracketed_text {address port : Bytes} (haddress : isIP address = true)
    (hcolon : colon ∈ address) (hclose : closeBracket ∉ address) (hport : IsPortText port) :
    parseBracketed isIP (openBracket :: address ++ [closeBracket] ++ port) =
      some (openBracket :: address ++ [closeBracket] ++ port, address) := by
  have hlong : ¬ address.length + 1 ≤ 1 := by
    have := List.length_pos_of_mem hcolon
    omega
  have hname : ((openBracket :: address ++ [closeBracket] ++ port).take (address.length + 1)).drop 1 =
      address := by
    rw [List.append_assoc, List.take_left' (by rw [List.length_cons])]
    rfl
  rw [parseBracketed, indexByte_ipLiteral hclose]
  simp only [hlong, if_false, hname, drop_ipLiteral, haddress, hcolon, not_true_eq_false, reduceCtorEq, or_self]
  rcases hport with rfl | ⟨digits, rfl, hvalid⟩
  · rfl
  · simp [hvalid]

theorem parseNamed_text {name port : Bytes} (hne : name ≠ []) (hvalid : validRegName name = true)
    (hport : IsPortText port) : parseNamed (name ++ port) = some (name ++ port, name) := by
  have hopen : openBracket ∉ name ++ port := by
    rw [List.mem_append, not_or]
    exact ⟨Host.openBracket_notMem_regName hvalid,
      fun hc => (isAuthorityByte_of_port hport _ hc).2.1 rfl⟩
  have hclose : closeBracket ∉ name ++ port := by
    rw [List.mem_append, not_or]
    exact ⟨Host.closeBracket_notMem_regName hvalid,
      fun hc => (isAuthorityByte_of_port hport _ hc).2.2.1 rfl⟩
  have hcolon := Host.colon_notMem_regName hvalid
  have hcount : List.count colon name = 0 := List.count_eq_zero_of_not_mem hcolon
  rcases hport with rfl | ⟨digits, rfl, hdigits⟩
  · rw [List.append_nil] at hopen hclose ⊢
    rw [parseNamed, if_neg (by rw [hcount]; simp [hopen, hclose]), lastIndexByte_eq_none hcolon]
    simp [hne, hvalid]
  · have hdigit : colon ∉ digits := fun hc =>
      (isDecimal_facts (isDecimal_of_validPort hdigits _ hc)).2.1 rfl
    have hone : List.count colon (name ++ colon :: digits) = 1 := by
      rw [List.count_append, hcount, List.count_cons_self, List.count_eq_zero_of_not_mem hdigit]
    rw [parseNamed, if_neg (by rw [hone]; simp [hopen, hclose]), lastIndexByte_regName hdigits]
    simp [hne, hvalid, hdigits]

/-- The parser accepts every authority, as its text and its host's name. -/
theorem parse_text (hip : ReadsAddresses isIP) (a : Authority isIP) :
    parseHTTPAuthority isIP a.text = some (a.text, a.host.name) := by
  have hpass : ¬ (a.text = [] ∨ containsSpaceOrControl a.text = true ∨
      containsAny a.text forbidden = true) := by
    rw [a.containsSpaceOrControl_text hip, a.containsAny_text hip]
    simp [a.text_ne_nil]
  rw [parseHTTPAuthority, if_neg hpass]
  obtain ⟨host, port, hport⟩ := a
  cases host with
  | regName name hne hvalid =>
      exact (if_neg (head_regName hne hvalid)).trans (parseNamed_text hne hvalid hport)
  | ipLiteral address haddress hcolon =>
      have hclose := Host.closeBracket_notMem_address hip haddress
      exact (if_pos rfl).trans (parseBracketed_text haddress hcolon hclose hport)

theorem exists_of_parseBracketed {raw authority hostname : Bytes}
    (hhead : raw.head? = some openBracket)
    (h : parseBracketed isIP raw = some (authority, hostname)) :
    ∃ a : Authority isIP, a.text = raw ∧ authority = raw ∧ a.host.name = hostname := by
  by_cases hclose : closeBracket ∈ raw
  · obtain ⟨front, rest, rfl, -, hindex⟩ := exists_cut_of_mem hclose
    rw [parseBracketed, hindex] at h
    by_cases hlong : front.length ≤ 1
    · simp only [if_pos hlong] at h
      cases h
    obtain ⟨c, address, rfl⟩ := List.exists_cons_of_ne_nil (l := front) (by
      rintro rfl
      exact hlong (Nat.zero_le _))
    obtain rfl : c = openBracket := Option.some.inj hhead
    have hname : ((openBracket :: address ++ closeBracket :: rest).take
        (openBracket :: address).length).drop 1 = address := by
      rw [List.take_left]
      rfl
    have hrest : (openBracket :: address ++ closeBracket :: rest).drop
        ((openBracket :: address).length + 1) = rest := by
      rw [← List.drop_drop, List.drop_left]
      rfl
    simp only [hlong, if_false, hname, hrest] at h
    by_cases hbad : isIP address = false ∨ colon ∉ address
    · rw [if_pos hbad] at h
      cases h
    · rw [if_neg hbad] at h
      rw [not_or, Bool.not_eq_false, not_not] at hbad
      have htext : openBracket :: address ++ [closeBracket] ++ rest =
          openBracket :: address ++ closeBracket :: rest := by
        rw [List.append_assoc]
        rfl
      by_cases hnil : rest = []
      · rw [if_pos hnil] at h
        cases h
        exact ⟨⟨.ipLiteral hostname hbad.1 hbad.2, rest, .inl hnil⟩, htext, rfl, rfl⟩
      · rw [if_neg hnil] at h
        by_cases hport : rest.head? ≠ some colon ∨ validPort (rest.drop 1) = false
        · rw [if_pos hport] at h
          cases h
        · rw [if_neg hport] at h
          rw [not_or, Bool.not_eq_false, not_not] at hport
          cases h
          obtain ⟨b, digits, rfl⟩ := List.exists_cons_of_ne_nil hnil
          obtain rfl : b = colon := Option.some.inj hport.1
          exact ⟨⟨.ipLiteral hostname hbad.1 hbad.2, _, .inr ⟨digits, rfl, hport.2⟩⟩, htext, rfl, rfl⟩
  · rw [parseBracketed, indexByte_eq_none hclose] at h
    cases h

theorem exists_of_parseNamed {raw authority hostname : Bytes}
    (h : parseNamed raw = some (authority, hostname)) :
    ∃ a : Authority isIP, a.text = raw ∧ authority = raw ∧ a.host.name = hostname := by
  rw [parseNamed] at h
  by_cases hbad : openBracket ∈ raw ∨ closeBracket ∈ raw ∨ 1 < raw.count colon
  · rw [if_pos hbad] at h
    cases h
  rw [if_neg hbad] at h
  by_cases hcolon : colon ∈ raw
  · obtain ⟨name, digits, rfl, hname, -⟩ := exists_cut_of_mem hcolon
    have hdigits : colon ∉ digits := by
      intro hc
      refine hbad (.inr (.inr ?_))
      rw [List.count_append, List.count_cons_self]
      have := List.count_pos_iff.mpr hc
      omega
    have hport : (name ++ colon :: digits).drop (name.length + 1) = digits := by
      rw [← List.drop_drop, List.drop_left]
      rfl
    rw [lastIndexByte_append hdigits] at h
    simp only [hport, List.take_left] at h
    by_cases hvalid : validPort digits = false
    · rw [if_pos hvalid] at h
      cases h
    · rw [if_neg hvalid] at h
      by_cases hempty : name = [] ∨ validRegName name = false
      · rw [if_pos hempty] at h
        cases h
      · rw [if_neg hempty] at h
        rw [not_or, Bool.not_eq_false] at hempty
        rw [Bool.not_eq_false] at hvalid
        cases h
        exact ⟨⟨.regName hostname hempty.1 hempty.2, _, .inr ⟨digits, rfl, hvalid⟩⟩, rfl, rfl, rfl⟩
  · rw [lastIndexByte_eq_none hcolon] at h
    by_cases hempty : raw = [] ∨ validRegName raw = false
    · simp only [if_pos hempty] at h
      cases h
    · simp only [if_neg hempty] at h
      rw [not_or, Bool.not_eq_false] at hempty
      cases h
      exact ⟨⟨.regName raw hempty.1 hempty.2, [], .inl rfl⟩, List.append_nil raw, rfl, rfl⟩

/-- What the parser accepts is the text of an authority. -/
theorem exists_of_parse {raw authority hostname : Bytes}
    (h : parseHTTPAuthority isIP raw = some (authority, hostname)) :
    ∃ a : Authority isIP, a.text = raw ∧ authority = raw ∧ a.host.name = hostname := by
  rw [parseHTTPAuthority] at h
  by_cases hbad : raw = [] ∨ containsSpaceOrControl raw = true ∨ containsAny raw forbidden = true
  · rw [if_pos hbad] at h
    cases h
  · rw [if_neg hbad] at h
    by_cases hhead : raw.head? = some openBracket
    · rw [if_pos hhead] at h
      exact exists_of_parseBracketed hhead h
    · rw [if_neg hhead] at h
      exact exists_of_parseNamed h

end Authority

/-! ## The canonical form -/

theorem validRegName_asciiLower {name : Bytes} (h : validRegName name = true) :
    validRegName (asciiLower name) = true := by
  rw [validRegName, List.all_eq_true, asciiLower]
  intro c hc
  obtain ⟨b, hb, rfl⟩ := List.mem_map.mp hc
  exact isRegNameByte_lowerByte.mpr (List.all_eq_true.mp h b hb)

theorem colon_mem_asciiLower {s : Bytes} : colon ∈ asciiLower s ↔ colon ∈ s := by
  rw [asciiLower, List.mem_map]
  constructor
  · rintro ⟨c, hc, hlower⟩
    exact lowerByte_eq_colon.mp hlower ▸ hc
  · exact fun h => ⟨colon, h, rfl⟩

/-- The host with its letters in lower case. -/
def Host.lower (hip : ReadsAddresses isIP) : Host isIP → Host isIP
  | regName name ne_nil valid =>
      .regName (asciiLower name) (mt List.map_eq_nil_iff.mp ne_nil) (validRegName_asciiLower valid)
  | ipLiteral address isIP colon =>
      .ipLiteral (asciiLower address) ((hip.lower address).trans isIP) (colon_mem_asciiLower.mpr colon)

/-- The authority with its host in lower case. -/
def Authority.lower (hip : ReadsAddresses isIP) (a : Authority isIP) : Authority isIP :=
  { a with host := a.host.lower hip }

section

variable (hip : ReadsAddresses isIP)

@[simp] theorem Host.name_lower (host : Host isIP) : (host.lower hip).name = asciiLower host.name := by
  cases host with
  | regName name hne hvalid => rfl
  | ipLiteral address haddress hcolon => rfl

theorem Host.text_lower (host : Host isIP) : (host.lower hip).text = asciiLower host.text := by
  cases host with
  | regName name hne hvalid => rfl
  | ipLiteral address haddress hcolon =>
      rw [text, asciiLower_append]
      rfl

theorem asciiLower_port {port : Bytes} (h : IsPortText port) : asciiLower port = port :=
  asciiLower_of_fixed fun c hc => (isAuthorityByte_of_port h c hc).2.2.2

/-- The canonical text of an authority is its text in lower case. -/
theorem Authority.text_lower (a : Authority isIP) : (a.lower hip).text = asciiLower a.text := by
  rw [text, text, asciiLower_append, asciiLower_port a.isPort, ← Host.text_lower hip]
  rfl

theorem Host.toLower_name (hip : ReadsAddresses isIP) (lowerRunes : Bytes → Bytes)
    (host : Host isIP) :
    toLower lowerRunes host.name = asciiLower host.name := by
  refine if_pos (List.all_eq_true.mpr fun c hc => ?_)
  exact decide_eq_true (host.bytes hip c hc).1.1.1.2

namespace Authority

theorem portText_text (hip : ReadsAddresses isIP) (a : Authority isIP) : portText a.text = a.port := by
  obtain ⟨host, port, hport⟩ := a
  cases host with
  | regName name hne hvalid =>
      refine (if_neg (head_regName hne hvalid)).trans ?_
      rw [text, Host.text]
      rcases hport with rfl | ⟨digits, rfl, hdigits⟩
      · rw [List.append_nil, lastIndexByte_eq_none (Host.colon_notMem_regName hvalid)]
      · rw [lastIndexByte_regName hdigits]
        exact List.drop_left
  | ipLiteral address haddress hcolon =>
      refine (if_pos rfl).trans ?_
      rw [text, Host.text, indexByte_ipLiteral (Host.closeBracket_notMem_address hip haddress)]
      exact drop_ipLiteral address port

theorem canonicalAuthority_text (lowerRunes : Bytes → Bytes) (a : Authority isIP) :
    canonicalAuthority lowerRunes a.text a.host.name = (a.lower hip).text := by
  rw [canonicalAuthority, a.host.toLower_name hip]
  obtain ⟨host, port, hport⟩ := a
  cases host with
  | regName name hne hvalid =>
      refine (if_neg (head_regName hne hvalid)).trans ?_
      rw [text, Host.text]
      rcases hport with rfl | ⟨digits, rfl, hdigits⟩
      · rw [List.append_nil, lastIndexByte_eq_none (Host.colon_notMem_regName hvalid)]
        exact (List.append_nil _).symm
      · rw [lastIndexByte_regName hdigits]
        exact congrArg (asciiLower name ++ ·) List.drop_left
  | ipLiteral address haddress hcolon =>
      refine (if_pos rfl).trans ?_
      rw [text, Host.text, indexByte_ipLiteral (Host.closeBracket_notMem_address hip haddress)]
      simp only [drop_ipLiteral]
      rw [text, lower, Host.lower, Host.text, List.append_assoc]
      rfl

theorem lower_lower (a : Authority isIP) : (a.lower hip).lower hip = a.lower hip := by
  have hname : ((a.host.lower hip).lower hip).name = (a.host.lower hip).name := by
    rw [Host.name_lower, Host.name_lower, asciiLower_asciiLower]
  rw [lower, lower]
  exact congrArg (Authority.mk · a.port a.isPort) (Host.name_injective hname)

/-- Two authorities with one text are one: the text is cut in one way. -/
theorem text_injective (hip : ReadsAddresses isIP) {a b : Authority isIP} (h : a.text = b.text) :
    a = b := by
  have hparse := a.parse_text hip
  rw [h, b.parse_text hip] at hparse
  have hname : a.host = b.host := Host.name_injective (Prod.mk.inj (Option.some.inj hparse)).2.symm
  have hport : a.port = b.port := by rw [← a.portText_text hip, h, b.portText_text hip]
  cases a
  cases b
  cases hname
  cases hport
  rfl

theorem text_lower_inj (hip : ReadsAddresses isIP) {a b : Authority isIP} :
    (a.lower hip).text = (b.lower hip).text ↔
      asciiLower a.host.name = asciiLower b.host.name ∧ a.port = b.port := by
  rw [← Host.name_lower hip, ← Host.name_lower hip]
  constructor
  · intro h
    have hlower := text_injective hip h
    exact ⟨congrArg (·.host.name) hlower, congrArg (·.port) hlower⟩
  · rintro ⟨hname, hport⟩
    rw [text, text]
    exact congrArg₂ (· ++ ·) (congrArg Host.text (Host.name_injective hname)) hport

end Authority

/-! ## Texts that differ in letter case -/

theorem lowerByte_cases (c : UInt8) : lowerByte c = c ∨ isLetter (lowerByte c) = true := by
  obtain ⟨n, rfl⟩ := exists_ofFin c
  revert n
  decide +kernel

/-- Only letters have another spelling. -/
theorem eq_of_asciiLower_eq {s t : Bytes} (ht : ∀ c ∈ t, isLetter c = false)
    (h : asciiLower s = t) : s = t := by
  rw [← h]
  refine (asciiLower_of_fixed fun c hc => ?_).symm
  rcases lowerByte_cases c with hfixed | hletter
  · exact hfixed
  · rw [ht _ (h ▸ List.mem_map_of_mem hc)] at hletter
    cases hletter

theorem port_no_letter {port : Bytes} (h : IsPortText port) : ∀ c ∈ port, isLetter c = false := by
  intro c hc
  rcases h.bytes c hc with rfl | hdigit
  · rfl
  · exact (isDecimal_facts hdigit).2.2.2.2.2

theorem Host.exists_of_asciiLower_eq {s : Bytes} {host : Host isIP} (hip : ReadsAddresses isIP)
    (h : asciiLower s = (host.lower hip).text) :
    ∃ host' : Host isIP, host'.text = s ∧ host'.lower hip = host.lower hip := by
  cases host with
  | regName name hne hvalid =>
      have hs : asciiLower s = asciiLower name := h
      have hvalid' : validRegName s = true := by
        refine List.all_eq_true.mpr fun c hc => isRegNameByte_lowerByte.mp ?_
        refine List.all_eq_true.mp (validRegName_asciiLower hvalid) _ ?_
        rw [← hs]
        exact List.mem_map_of_mem hc
      have hne' : s ≠ [] := by
        rintro rfl
        exact hne (List.map_eq_nil_iff.mp hs.symm)
      refine ⟨.regName s hne' hvalid', rfl, Host.name_injective ?_⟩
      rw [Host.name_lower, Host.name_lower]
      exact hs
  | ipLiteral address haddress hcolon =>
      have hs : asciiLower s = [openBracket] ++ (asciiLower address ++ [closeBracket]) := h
      obtain ⟨front, rest, rfl, hfront, hrest⟩ := List.map_eq_append_iff.mp hs
      obtain ⟨address', back, rfl, haddress', hback⟩ := List.map_eq_append_iff.mp hrest
      obtain rfl : front = [openBracket] :=
        eq_of_asciiLower_eq (List.forall_mem_singleton.mpr rfl) hfront
      obtain rfl : back = [closeBracket] :=
        eq_of_asciiLower_eq (List.forall_mem_singleton.mpr rfl) hback
      have hisIP : isIP address' = true := by
        rw [← hip.lower address', asciiLower, haddress', hip.lower address, haddress]
      have hcolon' : colon ∈ address' := by
        rw [← colon_mem_asciiLower, asciiLower, haddress']
        exact colon_mem_asciiLower.mpr hcolon
      refine ⟨.ipLiteral address' hisIP hcolon', rfl, Host.name_injective ?_⟩
      rw [Host.name_lower, Host.name_lower]
      exact haddress'

/-- A text that is that of an authority but for the letter case of its host is the text of another. -/
theorem Authority.exists_of_asciiLower_eq {s : Bytes} {a : Authority isIP} (hip : ReadsAddresses isIP)
    (h : asciiLower s = (a.lower hip).text) :
    ∃ b : Authority isIP, b.text = s ∧ b.lower hip = a.lower hip := by
  obtain ⟨front, port, rfl, hfront, hport⟩ := List.map_eq_append_iff.mp h
  obtain ⟨host, rfl, hhost⟩ := Host.exists_of_asciiLower_eq hip hfront
  obtain rfl : port = a.port := eq_of_asciiLower_eq (port_no_letter a.isPort) hport
  exact ⟨⟨host, a.port, a.isPort⟩, rfl, congrArg (Authority.mk · a.port a.isPort) hhost⟩

end

end

end Scrumboy.PublicOrigin
