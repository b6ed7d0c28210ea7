import Nanoclaw.Lib.Address
import Nanoclaw.Lib.Proc

/-!
# The Domain Allowlist of the Network Proxy

The proxy connects to hosts that are an allowed domain or below one. Entries and hosts are
brought to one form first; what is no domain name then is neither an entry nor allowed. The
comparison is made on texts and amounts to one of labels.
-/

namespace Nanoclaw.NetworkProxy

open List Text

def labels (name : String) : List String :=
  split name '.'

def isLabelChar (c : Char) : Bool :=
  ('a' ≤ c && c ≤ 'z') || ('0' ≤ c && c ≤ '9')

/-- The checks of `normalize_domain`. Lengths are counted in bytes. -/
@[irreducible] def isDomainName (name : String) : Bool :=
  name != "" && name.utf8ByteSize ≤ 253 &&
    name.toList.all (fun c => isLabelChar c || c == '-' || c == '.') &&
    (labels name).all fun label =>
      label != "" && label.utf8ByteSize ≤ 63 && label.toList.head? != some '-' &&
        label.toList.getLast? != some '-' && label.toList.any isLabelChar

/-- What `normalize_domain` makes of a text before the checks. -/
def foldDomain (value : String) : String :=
  toAsciiLowercase (trimMatches (· == '.') (trim value))

def normalizeDomain (value : String) : Option String :=
  if isDomainName (foldDomain value) then some (foldDomain value) else none

theorem normalizeDomain_eq_some {value name : String} : normalizeDomain value = some name ↔
      isDomainName (foldDomain value) = true ∧ foldDomain value = name := by
  rw [normalizeDomain]
  generalize isDomainName (foldDomain value) = accepted
  cases accepted <;> simp

inductive ProxyError where
  | invalidAllowlistEntry (value : String)
  | emptyAllowlist
  deriving DecidableEq

structure DomainAllowlist where
  domains : List String
  deriving DecidableEq

namespace DomainAllowlist

/-- The loop over the entries. -/
def normalizeAll (normalized : List String) : List String → Except ProxyError (List String)
  | [] => .ok normalized
  | raw :: rest =>
    match normalizeDomain raw with
    | none => .error (.invalidAllowlistEntry raw)
    | some domain =>
      normalizeAll (if domain ∈ normalized then normalized else normalized ++ [domain]) rest

def new (domains : List String) : Except ProxyError DomainAllowlist := do
  let normalized ← normalizeAll [] domains
  if normalized.isEmpty then throw .emptyAllowlist
  return { domains := normalized }

def allowsHost (texts : Address.AddressText) (allowlist : DomainAllowlist) (host : String) : Bool :=
  match normalizeDomain host with
  | none => false
  | some host =>
    (texts.parse host).isNone && allowlist.domains.any fun allowed =>
      host == allowed || endsWith host ("." ++ allowed)

theorem mem_normalizeAll {raws normalized domains : List String} {domain : String}
    (h : normalizeAll normalized raws = .ok domains) :
    domain ∈ domains ↔ domain ∈ normalized ∨ ∃ raw ∈ raws, domain = foldDomain raw := by
  induction raws generalizing normalized with
  | nil =>
    cases h
    simp
  | cons raw rest ih =>
    rw [normalizeAll] at h
    cases hraw : normalizeDomain raw with
    | none =>
      rw [hraw] at h
      cases h
    | some folded =>
      rw [hraw] at h
      rw [ih h, exists_mem_cons_iff, ← or_assoc, (normalizeDomain_eq_some.mp hraw).2]
      refine or_congr_left ?_
      split
      next hmem => exact ⟨.inl, fun h => h.elim id fun heq => heq ▸ hmem⟩
      · rw [mem_append, mem_singleton]

/-- **The allowlist**: a host is allowed if and only if it is a domain name, no address, and its
labels end with those of an entry. -/
theorem allows_host_iff (texts : Address.AddressText) (entries : List String)
    (allowlist : DomainAllowlist) (hnew : new entries = .ok allowlist) (host : String) :
    allowlist.allowsHost texts host = true ↔ isDomainName (foldDomain host) = true ∧
      texts.parse (foldDomain host) = none ∧
      ∃ entry ∈ entries, labels (foldDomain entry) <:+ labels (foldDomain host) := by
  obtain ⟨domains, hall, hnew⟩ := Proc.except_bind_eq_ok.mp hnew
  have hdomains : ∀ domain, domain ∈ allowlist.domains ↔
      ∃ entry ∈ entries, domain = foldDomain entry := by
    intro domain
    rw [show allowlist.domains = domains by split at hnew <;> cases hnew; rfl,
      mem_normalizeAll hall]
    simp
  rw [allowsHost]
  cases hhost : normalizeDomain host with
  | none =>
    have hname : isDomainName (foldDomain host) ≠ true := fun hname => by
      simp [normalizeDomain_eq_some.mpr ⟨hname, rfl⟩] at hhost
    simp [hname]
  | some folded =>
    obtain ⟨hname, rfl⟩ := normalizeDomain_eq_some.mp hhost
    simp only [hname, true_and, Bool.and_eq_true, Option.isNone_iff_eq_none, any_eq_true,
      hdomains, labels, split_isSuffix_iff (show ".".toList = ['.'] from rfl), Bool.or_eq_true,
      beq_iff_eq, endsWith_iff]
    refine and_congr_right fun _ => ?_
    constructor
    · rintro ⟨_, ⟨entry, hentry, rfl⟩, h⟩
      exact ⟨entry, hentry, h⟩
    · rintro ⟨entry, hentry, h⟩
      exact ⟨_, ⟨entry, hentry, rfl⟩, h⟩

theorem allows_host_below : new ["Example.com"] = .ok ⟨["example.com"]⟩ ∧
      allowsHost Address.standardText ⟨["example.com"]⟩ "api.example.com." = true :=
  ⟨by decide +kernel, (allows_host_iff _ ["Example.com"] _ (by decide +kernel) _).mpr
    ⟨by decide +kernel, by decide +kernel, "Example.com", mem_cons_self, by decide +kernel⟩⟩

/-- A host below an allowed domain whose first label is no label. -/
theorem underscore_host_is_refused :
    (new ["example.com"]).map (allowsHost Address.standardText · "a_b.example.com") = .ok false ∧
      Address.standardText.parse "a_b.example.com" = none ∧
      labels "example.com" <:+ labels "a_b.example.com" := by
  decide +kernel

end DomainAllowlist

end Nanoclaw.NetworkProxy
