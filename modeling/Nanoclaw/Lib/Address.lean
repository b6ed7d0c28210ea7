import Nanoclaw.Lib.Text

/-!
# Internet Addresses

IPv4 and IPv6 addresses with the ranges that are not globally reachable, the host of a URL,
and the texts of addresses. How an address is read and how an IPv6 address is written belongs
to libraries: `AddressText` says what a program can rely on, `standardText` is an instance.
-/

namespace Address

open List

structure Ipv4Addr where
  a : Fin 256
  b : Fin 256
  c : Fin 256
  d : Fin 256
  deriving DecidableEq

namespace Ipv4Addr

variable (ip : Ipv4Addr)

/-- `127.0.0.0/8`. -/
def isLoopback : Bool := ip.a = 127

/-- `10.0.0.0/8`, `172.16.0.0/12` and `192.168.0.0/16`. -/
def isPrivate : Bool :=
  ip.a = 10 || (ip.a = 172 && 16 ≤ ip.b && ip.b ≤ 31) || (ip.a = 192 && ip.b = 168)

/-- `169.254.0.0/16`. -/
def isLinkLocal : Bool := ip.a = 169 && ip.b = 254

/-- `224.0.0.0/4`. -/
def isMulticast : Bool := 224 ≤ ip.a && ip.a ≤ 239

def isUnspecified : Bool := ip = ⟨0, 0, 0, 0⟩

/-- The four octets in decimal. -/
def text : String :=
  ".".intercalate [toString ip.a.1, toString ip.b.1, toString ip.c.1, toString ip.d.1]

end Ipv4Addr

structure Ipv6Addr where
  bits : BitVec 128
  deriving DecidableEq

namespace Ipv6Addr

variable (ip : Ipv6Addr)

/-- `::1`. -/
def isLoopback : Bool := ip.bits = 1

/-- `fc00::/7`. -/
def isUniqueLocal : Bool := ip.bits >>> 121 = 0x7e

/-- `fe80::/10`. -/
def isUnicastLinkLocal : Bool := ip.bits >>> 118 = 0x3fa

/-- `ff00::/8`. -/
def isMulticast : Bool := ip.bits >>> 120 = 0xff

def isUnspecified : Bool := ip.bits = 0

/-- The IPv4 address `x` of `::ffff:x`. -/
def toIpv4Mapped : Option Ipv4Addr :=
  let octet (shift : ℕ) : Fin 256 := Fin.ofNat 256 (ip.bits >>> shift).toNat
  if ip.bits >>> 32 = 0xffff then some ⟨octet 24, octet 16, octet 8, octet 0⟩ else none

end Ipv6Addr

inductive IpAddr where
  | v4 (ip : Ipv4Addr)
  | v6 (ip : Ipv6Addr)
  deriving DecidableEq

/-- The host of a parsed URL: every spelling of an address is the address. -/
inductive Host where
  | domain (name : String)
  | ipv4 (ip : Ipv4Addr)
  | ipv6 (ip : Ipv6Addr)
  deriving DecidableEq

/-- **How addresses are read and written**, as far as the model relies on it. -/
structure AddressText where
  parse : String → Option IpAddr
  ipv6Text : Ipv6Addr → String
  parse_ipv4 : ∀ ip : Ipv4Addr, parse ip.text = some (.v4 ip)
  parse_bracket : ∀ s : String, s.toList.head? = some '[' → parse s = none

/-- The host as a text; an IPv6 address stands in square brackets. -/
def Host.hostStr (texts : AddressText) : Host → String
  | .domain name => name
  | .ipv4 ip => ip.text
  | .ipv6 ip => "[" ++ texts.ipv6Text ip ++ "]"

/-! ### The text of an IPv4 address -/

/-- The characters of a number in decimal. -/
def decimal (n : ℕ) : List Char := (toString n).toList

theorem isDigit_of_mem_decimal {n : ℕ} {c : Char} (h : c ∈ decimal n) : c.isDigit = true := by
  rw [decimal, Nat.toString_eq_repr, Nat.toList_repr] at h
  exact Nat.isDigit_of_mem_toDigits (by decide) (by decide) h

theorem decimal_ne_nil (n : ℕ) : decimal n ≠ [] := by
  rw [decimal, Nat.toString_eq_repr, Nat.toList_repr]
  exact Nat.toDigits_ne_nil

theorem Ipv4Addr.toList_text (ip : Ipv4Addr) : ip.text.toList =
    ['.'].intercalate [decimal ip.a, decimal ip.b, decimal ip.c, decimal ip.d] := by
  rw [text, String.toList_intercalate]
  rfl

theorem Ipv4Addr.isDigit_or_of_mem_text {ip : Ipv4Addr} {c : Char} (h : c ∈ ip.text.toList) :
    c.isDigit = true ∨ c = '.' := by
  rw [toList_text] at h
  simp only [intercalate, intersperse, flatten_cons, flatten_nil,
    mem_append, mem_singleton, not_mem_nil, or_false] at h
  rcases h with h | h | h | h | h | h | h
  all_goals first
    | exact .inr h
    | exact .inl (isDigit_of_mem_decimal h)

theorem Ipv4Addr.text_ends (ip : Ipv4Addr) : ∃ (first last : Char) (word : List Char),
    ip.text.toList = first :: (word ++ [last]) ∧ first.isDigit = true ∧ last.isDigit = true := by
  obtain ⟨first, front, hfirst⟩ := exists_cons_of_ne_nil (decimal_ne_nil ip.a)
  obtain ⟨back, last, hlast⟩ := eq_nil_or_concat (decimal ip.d) |>.resolve_left
    (decimal_ne_nil ip.d)
  refine ⟨first, last, front ++ '.' :: (decimal ip.b ++ '.' :: (decimal ip.c ++ '.' :: back)),
    ?_, isDigit_of_mem_decimal (n := ip.a) (by simp [hfirst]),
    isDigit_of_mem_decimal (n := ip.d) (by simp [hlast])⟩
  rw [toList_text, hfirst, hlast]
  simp [intercalate, intersperse]

/-! ### An instance -/

/-- A number below 256 in decimal, without leading zeros. -/
def parseOctet (cs : List Char) : Option (Fin 256) :=
  (List.finRange 256).find? fun n => decimal n == cs

theorem parseOctet_decimal : ∀ n : Fin 256, parseOctet (decimal n) = some n := by
  decide +kernel

def parseIpv4 (s : String) : Option Ipv4Addr :=
  match (s.toList.splitOn '.').mapM parseOctet with
  | some [a, b, c, d] => some ⟨a, b, c, d⟩
  | _ => none

theorem parseIpv4_text (ip : Ipv4Addr) : parseIpv4 ip.text = some ip := by
  have hdot : ∀ n : ℕ, '.' ∉ decimal n := fun n h => by
    exact absurd (isDigit_of_mem_decimal h) (by decide)
  have hsplit : ip.text.toList.splitOn '.' =
      [decimal ip.a, decimal ip.b, decimal ip.c, decimal ip.d] := by
    rw [Ipv4Addr.toList_text]
    refine splitOn_intercalate _ (fun digits hdigits => ?_) (cons_ne_nil _ _)
    simp only [mem_cons, not_mem_nil, or_false] at hdigits
    rcases hdigits with rfl | rfl | rfl | rfl <;> exact hdot _
  rw [parseIpv4, hsplit]
  simp [parseOctet_decimal]

def hexDigit (c : Char) : Option ℕ :=
  if c.isDigit then some (c.toNat - '0'.toNat)
  else if 'a' ≤ c ∧ c ≤ 'f' then some (c.toNat - 'a'.toNat + 10)
  else if 'A' ≤ c ∧ c ≤ 'F' then some (c.toNat - 'A'.toNat + 10)
  else none

/-- One to four hexadecimal digits. -/
def parseGroup (cs : List Char) : Option ℕ :=
  if cs.isEmpty || 4 < cs.length then none
  else (cs.mapM hexDigit).map (List.foldl (fun n digit => n * 16 + digit) 0)

def parseGroups (cs : List Char) : Option (List ℕ) :=
  if cs.isEmpty then some [] else (cs.splitOn ':').mapM parseGroup

/-- Cut at the first double colon. -/
def cutDouble : List Char → Option (List Char × List Char)
  | [] => none
  | ':' :: ':' :: rest => some ([], rest)
  | c :: rest => (cutDouble rest).map fun (front, back) => (c :: front, back)

def ofGroups (groups : List ℕ) : Ipv6Addr :=
  ⟨BitVec.ofNat 128 (groups.foldl (fun n group => n * 65536 + group) 0)⟩

/-- Eight groups, or fewer around a double colon. -/
def parseIpv6 (s : String) : Option Ipv6Addr :=
  match cutDouble s.toList with
  | some (front, back) => do
    let front ← parseGroups front
    let back ← parseGroups back
    let missing := 8 - (front.length + back.length)
    if missing = 0 then none else return ofGroups (front ++ List.replicate missing 0 ++ back)
  | none => do
    let groups ← parseGroups s.toList
    if groups.length = 8 then return ofGroups groups else none

def Ipv6Addr.groups (ip : Ipv6Addr) : List ℕ :=
  [112, 96, 80, 64, 48, 32, 16, 0].map fun shift => (ip.bits >>> shift).toNat % 65536

/-- The eight groups in hexadecimal, the first of the longest runs of zeros left out. -/
def compressedText (ip : Ipv6Addr) : String :=
  let join (groups : List ℕ) := ":".intercalate (groups.map fun n => .ofList (Nat.toDigits 16 n))
  let runs := (List.range 8).map fun start => ((ip.groups.drop start).takeWhile (· = 0)).length
  let longest := runs.foldl max 0
  let start := runs.findIdx (· = longest)
  if longest < 2 then join ip.groups
  else join (ip.groups.take start) ++ "::" ++ join (ip.groups.drop (start + longest))

def isAddressChar (c : Char) : Bool :=
  (hexDigit c).isSome || c = '.' || c = ':'

def parseAddress (s : String) : Option IpAddr :=
  if s.toList.all isAddressChar then
    ((parseIpv4 s).map .v4).or ((parseIpv6 s).map .v6)
  else none

def standardText : AddressText where
  parse := parseAddress
  ipv6Text := compressedText
  parse_ipv4 ip := by
    have hall : ip.text.toList.all isAddressChar = true := by
      refine List.all_eq_true.mpr fun c hc => ?_
      rcases Ipv4Addr.isDigit_or_of_mem_text hc with hdigit | rfl
      · simp [isAddressChar, hexDigit, hdigit]
      · decide
    rw [parseAddress, if_pos hall, parseIpv4_text]
    rfl
  parse_bracket s hs := by
    refine if_neg fun hall => ?_
    have hmem : '[' ∈ s.toList := mem_of_mem_head? hs
    exact absurd (List.all_eq_true.mp hall _ hmem) (by decide)

example : standardText.parse (standardText.ipv6Text ⟨0xfe80 <<< 112 ||| 1⟩) =
    some (.v6 ⟨0xfe80 <<< 112 ||| 1⟩) := by
  decide +kernel

end Address
