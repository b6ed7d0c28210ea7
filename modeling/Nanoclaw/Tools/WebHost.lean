import Nanoclaw.Lib.Address
import Nanoclaw.Tools.TextEdit

/-!
# Which Hosts the Web Tools Reach

Before a request is sent `WebToolPolicy` looks at the host of the URL. Unless private hosts are
allowed, a host that is local or in a private range is refused. The check parses the text of the
host once more; that of an IPv6 address carries square brackets, which the parser does not take.
-/

namespace Nanoclaw.Tools

open List Text Address

/-- `Url`, as far as the policy reads it. -/
structure Url where
  scheme : String
  host : Option Host

structure WebToolPolicy where
  allowPrivateHosts : Bool
  allowedDomains : List String
  blockedDomains : List String

def isDot (c : Char) : Bool := c = '.'

/-- The text that `is_private_or_local_host` looks at. -/
def normalizedHost (host : String) : String :=
  Text.toAsciiLowercase (Text.trimMatches isDot (Text.trim host))

def isPrivateOrLocalHost (texts : AddressText) (host : String) : Bool :=
  let normalized := normalizedHost host
  if normalized = "localhost" || Text.endsWith normalized ".localhost" ||
      Text.endsWith normalized ".local" then true
  else
    match texts.parse normalized with
    | some (.v4 ip) =>
      ip.isLoopback || ip.isPrivate || ip.isLinkLocal || ip.isMulticast || ip.isUnspecified
    | some (.v6 ip) =>
      ip.isLoopback || ip.isUniqueLocal || ip.isUnicastLinkLocal || ip.isMulticast ||
        ip.isUnspecified
    | none => false

/-- The host is one of the domains or below one. -/
def inDomains (host : String) (domains : List String) : Bool :=
  let host := Text.toAsciiLowercase host
  domains.any fun domain => host = domain || Text.endsWith host ("." ++ domain)

def domainAllowed (host : String) (allowedDomains : List String) : Bool :=
  if allowedDomains.isEmpty then true else inDomains host allowedDomains

def domainBlocked (host : String) (blockedDomains : List String) : Bool :=
  inDomains host blockedDomains

/-- The domains of a configured list; the source keeps them as a set. -/
def parseDomainList (value : String) : List String :=
  (((split value ',').map trim).filter fun entry => !entry.isEmpty).map fun entry =>
    toAsciiLowercase (.ofList (entry.toList.dropWhile isDot))

namespace WebToolPolicy

variable (texts : AddressText) (policy : WebToolPolicy)

def validateTransportUrl (url : Url) : Except ToolError Unit :=
  if url.scheme ≠ "http" ∧ url.scheme ≠ "https" then
    .error (.invalidInput ("unsupported URL scheme `" ++ url.scheme ++ "`; expected http or https"))
  else
    match url.host.map (Host.hostStr texts) with
    | none => .error (.invalidInput "URL is missing a host")
    | some host =>
      if !policy.allowPrivateHosts && isPrivateOrLocalHost texts host then
        .error (.invalidInput ("refusing to access local or private host `" ++ host ++ "`"))
      else .ok ()

def validateTargetUrl (url : Url) : Except ToolError Unit := do
  policy.validateTransportUrl texts url
  match url.host.map (Host.hostStr texts) with
  | none => .error (.invalidInput "URL is missing a host")
  | some host =>
    if !domainAllowed host policy.allowedDomains then
      .error (.invalidInput ("host `" ++ host ++ "` is outside the configured allowlist"))
    else if domainBlocked host policy.blockedDomains then
      .error (.invalidInput ("host `" ++ host ++ "` is blocked by policy"))
    else .ok ()

end WebToolPolicy

/-! ### Private hosts -/

/-- `localhost` and names below it, in any case, with the final dot or not. -/
def LocalhostName (name : String) : Prop :=
  ∃ labels dot : List Char, (Text.toAsciiLowercase name).toList =
      labels ++ "localhost".toList ++ dot ∧
    (labels = [] ∨ labels.getLast? = some '.') ∧ (dot = [] ∨ dot = ['.'])

def PrivateIpv4 (ip : Ipv4Addr) : Prop :=
  ip.isLoopback ∨ ip.isPrivate ∨ ip.isLinkLocal ∨ ip.isMulticast ∨ ip.isUnspecified

/-- A private IPv6 address, or one that stands for a private IPv4 address. -/
def PrivateIpv6 (ip : Ipv6Addr) : Prop :=
  ip.isLoopback ∨ ip.isUniqueLocal ∨ ip.isUnicastLinkLocal ∨ ip.isMulticast ∨ ip.isUnspecified ∨
    ∃ mapped, ip.toIpv4Mapped = some mapped ∧ PrivateIpv4 mapped

/-- **The hosts that must not be reached.** -/
def PrivateHost : Host → Prop
  | .domain name => LocalhostName name
  | .ipv4 ip => PrivateIpv4 ip
  | .ipv6 ip => PrivateIpv6 ip

/-! ### What the check makes of the host's text -/

variable {host : String} {policy : WebToolPolicy} {texts : AddressText} {url : Url} {c : Char}

theorem not_upper_of_isDigit (h : c.isDigit = true) : ¬ ('A' ≤ c ∧ c ≤ 'Z') := by
  rintro ⟨hupper, -⟩
  have hlt : c.toNat ≤ 57 := by
    simp only [Char.isDigit, Bool.and_eq_true, decide_eq_true_eq] at h
    exact h.2
  have hge : 65 ≤ c.toNat := hupper
  omega

theorem not_isWhitespace_of_isDigit (h : c.isDigit = true) : isWhitespace c = false := by
  simp only [Char.isDigit, Bool.and_eq_true, decide_eq_true_eq] at h
  have hge : 48 ≤ c.toNat := h.1
  have hle : c.toNat ≤ 57 := h.2
  simp only [isWhitespace, Bool.or_eq_false_iff, Bool.and_eq_false_iff,
    decide_eq_false_iff_not, beq_eq_false_iff_ne]
  omega

/-- Without white space or dots at its ends, only the case changes. -/
theorem normalizedHost_eq {first last : Char} {word : List Char}
    (hhost : host.toList = first :: (word ++ [last]))
    (hfirst : isWhitespace first = false ∧ isDot first = false)
    (hlast : isWhitespace last = false ∧ isDot last = false) :
    normalizedHost host = toAsciiLowercase host := by
  rw [normalizedHost, trim, trimMatches_eq_self hhost hfirst.1 hlast.1,
    trimMatches_eq_self hhost hfirst.2 hlast.2]

/-- A text that ends in neither `t` nor `l` is read as an address. -/
theorem isPrivateOrLocalHost_of_last {last : Char}
    (hlast : (normalizedHost host).toList.getLast? = some last) (hname : last ≠ 't' ∧ last ≠ 'l') :
    isPrivateOrLocalHost texts host =
      match texts.parse (normalizedHost host) with
      | some (.v4 ip) =>
        ip.isLoopback || ip.isPrivate || ip.isLinkLocal || ip.isMulticast || ip.isUnspecified
      | some (.v6 ip) =>
        ip.isLoopback || ip.isUniqueLocal || ip.isUnicastLinkLocal || ip.isMulticast ||
          ip.isUnspecified
      | none => false := by
  have hne : normalizedHost host ≠ "localhost" := by
    intro heq
    rw [heq] at hlast
    exact hname.1 (Option.some.inj (hlast.symm.trans (by decide)))
  have hnames : endsWith (normalizedHost host) ".localhost" = false :=
    endsWith_eq_false hlast (by decide) hname.1
  have hlocal : endsWith (normalizedHost host) ".local" = false :=
    endsWith_eq_false hlast (by decide) hname.2
  rw [isPrivateOrLocalHost]
  simp only [hne, hnames, hlocal, decide_false, Bool.or_self, Bool.false_eq_true, if_false]

theorem isPrivateOrLocalHost_ipv4 (ip : Ipv4Addr) (h : PrivateIpv4 ip) :
    isPrivateOrLocalHost texts ip.text = true := by
  obtain ⟨first, last, word, htext, hfirst, hlast⟩ := ip.text_ends
  have hdot : ∀ {c : Char}, c.isDigit = true → isDot c = false := by
    rintro c hc
    refine decide_eq_false fun hdot => ?_
    rw [hdot] at hc
    exact absurd hc (by decide)
  have hnormalized : normalizedHost ip.text = ip.text := by
    rw [normalizedHost_eq htext ⟨not_isWhitespace_of_isDigit hfirst, hdot hfirst⟩
      ⟨not_isWhitespace_of_isDigit hlast, hdot hlast⟩]
    refine toAsciiLowercase_eq_self fun c hc => ?_
    rcases Ipv4Addr.isDigit_or_of_mem_text hc with hdigit | rfl
    · exact not_upper_of_isDigit hdigit
    · decide
  have hlast' : (normalizedHost ip.text).toList.getLast? = some last := by
    rw [hnormalized, htext, ← cons_append, getLast?_concat]
  have hname : last ≠ 't' ∧ last ≠ 'l' := by
    constructor <;> rintro rfl <;> exact absurd hlast (by decide)
  rw [isPrivateOrLocalHost_of_last hlast' hname, hnormalized, texts.parse_ipv4]
  simpa only [PrivateIpv4, Bool.or_eq_true, or_assoc] using h

/-- With its brackets, an IPv6 address is not read as an address. -/
theorem isPrivateOrLocalHost_bracketed (text : String) :
    isPrivateOrLocalHost texts ("[" ++ text ++ "]") = false := by
  have htext : ("[" ++ text ++ "]").toList = '[' :: (text.toList ++ [']']) := by simp
  have hnormalized := normalizedHost_eq htext (by decide) (by decide)
  have hlower : (normalizedHost ("[" ++ text ++ "]")).toList =
      '[' :: ((text.toList.map fun c => if 'A' ≤ c ∧ c ≤ 'Z' then c.toLower else c) ++ [']']) := by
    rw [hnormalized, toAsciiLowercase, String.toList_ofList, htext, map_cons, map_append]
    rfl
  have hlast : (normalizedHost ("[" ++ text ++ "]")).toList.getLast? = some ']' := by
    rw [hlower, ← cons_append, getLast?_concat]
  rw [isPrivateOrLocalHost_of_last hlast (by decide), texts.parse_bracket _ (by rw [hlower]; rfl)]

theorem isPrivateOrLocalHost_localhost {name : String} (h : LocalhostName name) :
    isPrivateOrLocalHost texts name = true := by
  obtain ⟨labels, dot, hname, hlabels, hdot⟩ := h
  have hlower : toAsciiLowercase name =
      .ofList (labels ++ 'l' :: ("ocalhos".toList ++ 't' :: dot)) := by
    rw [← String.ofList_toList (s := toAsciiLowercase name), hname]
    simp
  have hcase : ∀ c : Char, isDot (if 'A' ≤ c ∧ c ≤ 'Z' then c.toLower else c) = isDot c :=
    apply_lowercase_eq (by decide)
  have hspace : ∀ c : Char,
      isWhitespace (if 'A' ≤ c ∧ c ≤ 'Z' then c.toLower else c) = isWhitespace c :=
    apply_lowercase_eq (by decide)
  -- The trims leave `localhost` with the labels before it, less some at the front.
  have hnormalized : normalizedHost name = .ofList
      ((labels.dropWhile isWhitespace).dropWhile isDot ++ "localhost".toList) := by
    rw [normalizedHost, toAsciiLowercase_trimMatches hcase, trim,
      toAsciiLowercase_trimMatches hspace, hlower,
      trimMatches_around (by decide) (by decide),
      trimMatches_around (by decide) (by decide)]
    rcases hdot with rfl | rfl <;> rfl
  have hsuffix : (labels.dropWhile isWhitespace).dropWhile isDot <:+ labels :=
    (dropWhile_suffix _).trans (dropWhile_suffix _)
  rw [isPrivateOrLocalHost]
  refine if_pos ?_
  rcases eq_nil_or_concat ((labels.dropWhile isWhitespace).dropWhile isDot) with
    hnil | ⟨front, c, hfront⟩
  · have heq : normalizedHost name = "localhost" := by rw [hnormalized, hnil]; rfl
    simp [heq]
  · obtain ⟨rest, hrest⟩ := hsuffix
    rw [concat_eq_append] at hfront
    rw [hfront] at hrest
    have hc : c = '.' := by
      rcases hlabels with hnil | hlast
      · simp [hnil] at hrest
      · rw [← hrest, ← append_assoc, getLast?_concat] at hlast
        exact Option.some.inj hlast
    have hends : endsWith (normalizedHost name) ".localhost" = true := by
      rw [endsWith, hnormalized, hfront, hc, String.toList_ofList, isSuffixOf_iff_suffix]
      exact ⟨front, by simp⟩
    simp [hends]

/-- **When a private host is refused** over http or https: if and only if it is not an IPv6
address. -/
theorem private_host_refused_iff (texts : AddressText) (policy : WebToolPolicy)
    (hpolicy : policy.allowPrivateHosts = false) (url : Url) (host : Host)
    (hscheme : url.scheme = "http" ∨ url.scheme = "https") (hhost : url.host = some host)
    (hprivate : PrivateHost host) :
    (∃ error, policy.validateTransportUrl texts url = .error error) ↔ ∀ ip, host ≠ .ipv6 ip := by
  have hvalidate : policy.validateTransportUrl texts url =
      if isPrivateOrLocalHost texts (host.hostStr texts) = true then
        .error (.invalidInput ("refusing to access local or private host `" ++
          host.hostStr texts ++ "`"))
      else .ok () := by
    rw [WebToolPolicy.validateTransportUrl, if_neg (by tauto), hhost, hpolicy]
    simp only [Option.map_some, Bool.not_false, Bool.true_and]
  rw [hvalidate]
  cases host with
  | domain name =>
    rw [Host.hostStr, if_pos (isPrivateOrLocalHost_localhost hprivate)]
    exact ⟨fun _ => nofun, fun _ => ⟨_, rfl⟩⟩
  | ipv4 ip =>
    rw [Host.hostStr, if_pos (isPrivateOrLocalHost_ipv4 ip hprivate)]
    exact ⟨fun _ => nofun, fun _ => ⟨_, rfl⟩⟩
  | ipv6 ip =>
    rw [Host.hostStr, isPrivateOrLocalHost_bracketed, if_neg Bool.false_ne_true]
    exact ⟨fun ⟨_, h⟩ => (nomatch h), fun h => absurd rfl (h ip)⟩

/-- The policy without allowed or blocked domains. -/
def publicPolicy : WebToolPolicy := ⟨false, [], []⟩

theorem private_host_refused_loopback : ∃ error, publicPolicy.validateTransportUrl standardText
      ⟨"http", some (.ipv4 ⟨127, 0, 0, 1⟩)⟩ = .error error :=
  (private_host_refused_iff standardText publicPolicy rfl _ (.ipv4 ⟨127, 0, 0, 1⟩) (.inl rfl) rfl
    (.inl rfl)).mpr nofun

/-- **The loopback address `[::1]` is not refused**, nor is `[::ffff:127.0.0.1]`. -/
theorem loopback_ipv6_is_reached : PrivateHost (.ipv6 ⟨1⟩) ∧
      publicPolicy.validateTransportUrl standardText ⟨"http", some (.ipv6 ⟨1⟩)⟩ = .ok () ∧
      PrivateHost (.ipv6 ⟨0xffff7f000001⟩) ∧
      publicPolicy.validateTransportUrl standardText ⟨"http", some (.ipv6 ⟨0xffff7f000001⟩)⟩ =
        .ok () := by
  have hmapped : PrivateIpv4 ⟨127, 0, 0, 1⟩ := .inl rfl
  refine ⟨.inl rfl, by decide +kernel, ?_, by decide +kernel⟩
  exact .inr (.inr (.inr (.inr (.inr ⟨_, by decide +kernel, hmapped⟩))))

/-! ### Domain lists -/

/-- The host in lower case and without the root dot. -/
def foldHost (host : String) : String :=
  let name := (toAsciiLowercase host).toList
  .ofList (if name.getLast? = some '.' then name.dropLast else name)

/-- The host is one of the domains or below one, label by label. -/
def BelowDomains (host : String) (domains : List String) : Prop :=
  ∃ domain ∈ domains, split domain '.' <:+ split (foldHost host) '.'

/-- **The lists**: no blocked domain is reached, and only listed ones, if any. -/
def WebToolPolicy.Refuses (texts : AddressText) (policy : WebToolPolicy) (url : Url) : Prop :=
  (∃ error, policy.validateTransportUrl texts url = .error error) ∨
    ∃ host, url.host = some host ∧ (BelowDomains (host.hostStr texts) policy.blockedDomains ∨
      policy.allowedDomains ≠ [] ∧ ¬ BelowDomains (host.hostStr texts) policy.allowedDomains)

/-- The comparison of texts is one of labels, but of the host as it is written. -/
theorem inDomains_iff {domains : List String} : inDomains host domains = true ↔
      ∃ domain ∈ domains, split domain '.' <:+ split (toAsciiLowercase host) '.' := by
  simp only [inDomains, any_eq_true, Bool.or_eq_true, decide_eq_true_eq, endsWith_iff,
    split_isSuffix_iff (show ".".toList = ['.'] from rfl)]

theorem WebToolPolicy.validateTargetUrl_error_iff {host : Host}
    (htransport : policy.validateTransportUrl texts url = .ok ()) (hhost : url.host = some host) :
    (∃ error, policy.validateTargetUrl texts url = .error error) ↔
      inDomains (host.hostStr texts) policy.blockedDomains = true ∨
        policy.allowedDomains ≠ [] ∧
          ¬ inDomains (host.hostStr texts) policy.allowedDomains = true := by
  rw [validateTargetUrl, htransport, hhost]
  dsimp only [bind, Except.bind, Option.map_some]
  rw [domainAllowed, domainBlocked]
  generalize inDomains (host.hostStr texts) policy.blockedDomains = blocked
  generalize inDomains (host.hostStr texts) policy.allowedDomains = allowed
  cases policy.allowedDomains <;> cases blocked <;> cases allowed <;> simp

/-- A root dot is a label more. -/
theorem split_of_rooted (h : (toAsciiLowercase host).toList.getLast? = some '.') :
    split (toAsciiLowercase host) '.' = split (foldHost host) '.' ++ [""] := by
  have hlower : toAsciiLowercase host = foldHost host ++ "." ++ "" := by
    refine String.toList_injective ?_
    rw [foldHost, if_pos h, String.append_empty, String.toList_append, String.toList_ofList]
    exact (dropLast_append_getLast? '.' h).symm
  conv_lhs => rw [hlower]
  exact split_append rfl

/-- **When the lists go by labels**: if and only if the host is written without the root dot. -/
theorem domain_lists_by_labels_iff (texts : AddressText) (allowPrivate : Bool) (url : Url) :
    (∀ allowed blocked,
      (∃ error, WebToolPolicy.validateTargetUrl texts ⟨allowPrivate, allowed, blocked⟩ url =
        .error error) ↔ WebToolPolicy.Refuses texts ⟨allowPrivate, allowed, blocked⟩ url) ↔
    (∃ error, WebToolPolicy.validateTransportUrl texts ⟨allowPrivate, [], []⟩ url =
        .error error) ∨
      ∀ host, url.host = some host →
        (toAsciiLowercase (host.hostStr texts)).toList.getLast? ≠ some '.' := by
  have hlists : ∀ allowed blocked,
      WebToolPolicy.validateTransportUrl texts ⟨allowPrivate, allowed, blocked⟩ url =
        WebToolPolicy.validateTransportUrl texts ⟨allowPrivate, [], []⟩ url := fun _ _ => rfl
  simp only [WebToolPolicy.Refuses, hlists]
  cases htransport : WebToolPolicy.validateTransportUrl texts ⟨allowPrivate, [], []⟩ url with
  | error error =>
    refine iff_of_true (fun allowed blocked => iff_of_true ⟨error, ?_⟩ (.inl ⟨error, rfl⟩))
      (.inl ⟨error, rfl⟩)
    rw [WebToolPolicy.validateTargetUrl, hlists, htransport]
    rfl
  | ok =>
    obtain ⟨host, hhost⟩ : ∃ host, url.host = some host := by
      refine Option.ne_none_iff_exists'.mp fun hnone => ?_
      rw [WebToolPolicy.validateTransportUrl, hnone] at htransport
      split at htransport <;> cases htransport
    simp only [WebToolPolicy.validateTargetUrl_error_iff ((hlists _ _).trans htransport) hhost,
      inDomains_iff, BelowDomains, hhost, reduceCtorEq, exists_false, false_or, Option.some.injEq,
      exists_eq_left', forall_eq']
    constructor
    · intro h hrooted
      -- The host itself, listed with its root dot, is matched as it is written only.
      have hrefused := (h [] [toAsciiLowercase (host.hostStr texts)]).mp
        (.inl ⟨_, mem_singleton_self _, suffix_refl _⟩)
      obtain ⟨_, hmem, hsuffix⟩ := hrefused.resolve_right fun hempty => hempty.1 rfl
      rw [mem_singleton.mp hmem, split_of_rooted hrooted] at hsuffix
      have hlength := hsuffix.length_le
      rw [length_append, length_singleton] at hlength
      omega
    · intro hplain allowed blocked
      rw [foldHost, if_neg hplain, String.ofList_toList]

/-- **A root dot gets past the block list.** -/
theorem rooted_host_is_not_blocked :
    let policy : WebToolPolicy := ⟨false, parseDomainList "", parseDomainList "evil.com"⟩
    let url : Url := ⟨"https", some (.domain "evil.com.")⟩
    policy.validateTargetUrl standardText url = .ok () ∧ policy.Refuses standardText url :=
  ⟨by decide +kernel, .inr ⟨_, rfl, .inl ⟨"evil.com", by decide +kernel, by decide +kernel⟩⟩⟩

end Nanoclaw.Tools
