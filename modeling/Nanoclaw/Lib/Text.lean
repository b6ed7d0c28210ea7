import Mathlib.Algebra.Ring.Nat
import Mathlib.Data.List.DropRight

/-!
# Text Primitives

The string operations of a systems language's standard library that programs here rely on: the
`White_Space` test, trimming, splitting, ASCII lower-casing, finding and replacing a pattern,
testing for a beginning or an ending, and division rounding up.
-/

namespace Text

open List

/-- The Unicode `White_Space` property. -/
def isWhitespace (c : Char) : Bool :=
  let n := c.toNat
  (0x9 ≤ n && n ≤ 0xD) || n == 0x20 || n == 0x85 || n == 0xA0 || n == 0x1680 ||
    (0x2000 ≤ n && n ≤ 0x200A) || n == 0x2028 || n == 0x2029 || n == 0x202F ||
    n == 0x205F || n == 0x3000

/-- Drop the characters that satisfy `p` at both ends. -/
def trimMatches (p : Char → Bool) (s : String) : String :=
  String.ofList ((s.toList.dropWhile p).reverse.dropWhile p).reverse

/-- Drop white space at both ends. -/
def trim (s : String) : String :=
  trimMatches isWhitespace s

theorem trimMatches_trimMatches (p : Char → Bool) (s : String) :
    trimMatches p (trimMatches p s) = trimMatches p s := by
  have hfront : ((s.toList.dropWhile p).rdropWhile p).dropWhile p =
      (s.toList.dropWhile p).rdropWhile p := by
    refine dropWhile_eq_self_iff.mpr fun hpos => ?_
    have hpre := rdropWhile_prefix p (s.toList.dropWhile p)
    rw [hpre.getElem hpos]
    exact dropWhile_get_zero_not p s.toList _
  have htrim : ∀ s : String,
      trimMatches p s = .ofList ((s.toList.dropWhile p).rdropWhile p) := fun _ => rfl
  rw [htrim (trimMatches p s), htrim s, String.toList_ofList, hfront, rdropWhile_idempotent]

@[simp] theorem trim_trim (s : String) : trim (trim s) = trim s :=
  trimMatches_trimMatches isWhitespace s

variable {p : Char → Bool} {s : String} {first last : Char} {cs : List Char} {c : Char} {t : String}

/-- A first character that is dropped may as well not be there. -/
theorem trimMatches_cons
    (ht : t.toList = c :: s.toList) (hc : p c = true) : trimMatches p t = trimMatches p s := by
  rw [trimMatches, trimMatches, ht, dropWhile_cons_of_pos hc]

/-- A last character that is dropped may as well not be there. -/
theorem trimMatches_concat
    (ht : t.toList = s.toList ++ [c]) (hc : p c = true) : trimMatches p t = trimMatches p s := by
  rw [trimMatches, trimMatches, ht, dropWhile_append]
  split
  next hall =>
    rw [isEmpty_iff.mp hall, dropWhile_cons_of_pos hc]
    rfl
  · rw [reverse_append, reverse_singleton, singleton_append, dropWhile_cons_of_pos hc]

/-- Trimming stops on both sides at a word whose ends stay. -/
theorem trimMatches_around (hfirst : p first = false)
    (hlast : p last = false) (before word after : List Char) :
    trimMatches p (.ofList (before ++ first :: (word ++ last :: after))) =
      .ofList (before.dropWhile p ++ first :: (word ++ last :: after.rdropWhile p)) := by
  have hfront : (before ++ first :: (word ++ last :: after)).dropWhile p =
      before.dropWhile p ++ first :: (word ++ last :: after) := by
    rw [dropWhile_append, dropWhile_cons_of_neg (by simp [hfirst])]
    split
    next hnil => rw [isEmpty_iff.mp hnil, nil_append]
    · rfl
  have hback : ∀ front : List Char, (front ++ last :: after).rdropWhile p =
      front ++ last :: after.rdropWhile p := by
    intro front
    rw [rdropWhile, rdropWhile, reverse_append, reverse_cons,
      append_assoc, dropWhile_append, singleton_append,
      dropWhile_cons_of_neg (by simp [hlast])]
    split
    next hnil => simp [isEmpty_iff.mp hnil]
    · simp
  have hsplit : before.dropWhile p ++ first :: (word ++ last :: after) =
      (before.dropWhile p ++ first :: word) ++ last :: after := by simp
  rw [trimMatches, String.toList_ofList, hfront, hsplit]
  change String.ofList (((_ ++ first :: word) ++ last :: after).rdropWhile p) = _
  rw [hback, append_assoc, cons_append]

/-- Nothing is dropped from a text whose first and last characters stay. -/
theorem trimMatches_eq_self (hs : s.toList = first :: (cs ++ [last])) (hfirst : p first = false)
    (hlast : p last = false) : trimMatches p s = s := by
  rw [← s.ofList_toList, hs]
  exact trimMatches_around hfirst hlast [] cs []

/-- The maximal runs of characters that are not white space. -/
def splitWhitespace (s : String) : List String :=
  ((s.toList.splitOnP isWhitespace).filter fun cs => !cs.isEmpty).map String.ofList

/-- Lower-case the ASCII letters only. -/
def toAsciiLowercase (s : String) : String :=
  String.ofList (s.toList.map fun c => if 'A' ≤ c ∧ c ≤ 'Z' then c.toLower else c)

/-- A test passed by all letters or by none does not see the lower-casing. -/
theorem apply_lowercase_eq
    (hp : ∀ n < 26, p (Char.ofNat (65 + n)).toLower = p (Char.ofNat (65 + n))) (c : Char) :
    p (if 'A' ≤ c ∧ c ≤ 'Z' then c.toLower else c) = p c := by
  split
  next hupper =>
    have hge : 65 ≤ c.toNat := hupper.1
    have hle : c.toNat ≤ 90 := hupper.2
    have hletter := hp (c.toNat - 65) (by omega)
    rwa [Nat.add_sub_cancel' hge, Char.ofNat_toNat] at hletter
  · rfl

/-- Trimming and lower-casing commute if case does not decide what is dropped. -/
theorem toAsciiLowercase_trimMatches
    (hp : ∀ c : Char, p (if 'A' ≤ c ∧ c ≤ 'Z' then c.toLower else c) = p c) (s : String) :
    toAsciiLowercase (trimMatches p s) = trimMatches p (toAsciiLowercase s) := by
  have hcomp : (p ∘ fun c : Char => if 'A' ≤ c ∧ c ≤ 'Z' then c.toLower else c) = p := funext hp
  rw [toAsciiLowercase, toAsciiLowercase, trimMatches, trimMatches, String.toList_ofList,
    String.toList_ofList, dropWhile_map, ← map_reverse, dropWhile_map, hcomp,
    map_reverse]

theorem toAsciiLowercase_eq_self (h : ∀ c ∈ s.toList, ¬ ('A' ≤ c ∧ c ≤ 'Z')) :
    toAsciiLowercase s = s := by
  rw [toAsciiLowercase, map_congr_left fun c hc => if_neg (h c hc), map_id', String.ofList_toList]

/-- Replace every occurrence of a character by a string. -/
def replaceChar (s : String) (c : Char) (by' : String) : String :=
  String.ofList (s.toList.flatMap fun d => if d = c then by'.toList else [d])

/-- The number of occurrences without overlaps; `skip` characters belong to the last one. -/
def occurrences (pattern : List Char) : ℕ → List Char → ℕ
  | _, [] => if pattern = [] then 1 else 0
  | skip + 1, _ :: rest => occurrences pattern skip rest
  | 0, c :: rest =>
    if pattern.isPrefixOf (c :: rest) then 1 + occurrences pattern (pattern.length - 1) rest
    else occurrences pattern 0 rest

/-- Replace the first `limit` occurrences of the pattern. -/
def replaceList (pattern replacement : List Char) : ℕ → ℕ → List Char → List Char
  | limit, skip + 1, _ :: rest => replaceList pattern replacement limit skip rest
  | 0, _, rest => rest
  | _ + 1, _, [] => if pattern = [] then replacement else []
  | limit + 1, 0, c :: rest =>
    if pattern = [] then replacement ++ c :: replaceList pattern replacement limit 0 rest
    else if pattern.isPrefixOf (c :: rest) then
      replacement ++ replaceList pattern replacement limit (pattern.length - 1) rest
    else c :: replaceList pattern replacement (limit + 1) 0 rest

/-- `matches(pattern).count()`. -/
def countMatches (s pattern : String) : ℕ :=
  occurrences pattern.toList 0 s.toList

/-- `replacen`. -/
def replacen (s pattern replacement : String) (limit : ℕ) : String :=
  String.ofList (replaceList pattern.toList replacement.toList limit 0 s.toList)

/-- Replace every occurrence of a pattern; there are no more than one per character and one
at the end. -/
def replace (s pattern replacement : String) : String :=
  replacen s pattern replacement (s.length + 1)

example : countMatches "aXbXXc" "X" = 3 ∧ replace "aXbXXc" "X" "--" = "a--b----c" ∧
    replace "ab" "" "-" = "-a-b-" ∧ replacen "aaaa" "aa" "b" 1 = "baa" := by decide

theorem replaceList_eq_self {pattern : List Char} (replacement : List Char) (limit : ℕ)
    (h : c ∉ cs) : replaceList (c :: pattern) replacement limit 0 cs = cs := by
  induction cs generalizing limit with
  | nil => cases limit <;> simp [replaceList]
  | cons d cs ih =>
    obtain ⟨hd, hcs⟩ := not_or.mp (mt mem_cons.mpr h)
    cases limit with
    | zero => simp [replaceList]
    | succ limit => simp [replaceList, isPrefixOf, hd, ih _ hcs]

/-- A pattern whose first character does not occur is not replaced. -/
theorem replace_eq_self {pattern : String} {rest : List Char}
    (hpattern : pattern.toList = c :: rest) (h : c ∉ s.toList) (replacement : String) :
    replace s pattern replacement = s := by
  rw [replace, replacen, hpattern, replaceList_eq_self _ _ h, String.ofList_toList]

theorem replaceChar_eq_self (h : c ∉ s.toList) (by' : String) : replaceChar s c by' = s := by
  have hkept : (s.toList.flatMap fun d => if d = c then by'.toList else [d]) =
      s.toList.flatMap fun d => [d] :=
    flatMap_congr fun d hd => if_neg (ne_of_mem_of_not_mem hd h)
  rw [replaceChar, hkept, flatMap_singleton', String.ofList_toList]

/-! ### Beginnings of texts -/

/-- `starts_with`. -/
def startsWith (s start : String) : Bool :=
  start.toList.isPrefixOf s.toList

/-- `strip_prefix`. -/
def stripStart (s start : String) : Option String :=
  if startsWith s start then some (String.ofList (s.toList.drop start.length)) else none

@[simp] theorem startsWith_append (start s : String) : startsWith (start ++ s) start = true := by
  rw [startsWith, String.toList_append, isPrefixOf_iff_prefix]
  exact prefix_append _ _

@[simp] theorem stripStart_append (start s : String) : stripStart (start ++ s) start = some s := by
  rw [stripStart, startsWith_append, if_pos rfl, String.toList_append, ← String.length_toList,
    drop_left, String.ofList_toList]

variable {start ending : String}

/-- A text that departs from `start` in its first part does not start with it. -/
theorem startsWith_append_of_departs {first : String}
    (h : startsWith first start = false ∧ startsWith start first = false) (s : String) :
    startsWith (first ++ s) start = false := by
  rw [Bool.eq_false_iff]
  intro hstarts
  rw [startsWith, String.toList_append, isPrefixOf_iff_prefix] at hstarts
  rcases prefix_or_prefix_of_prefix hstarts (prefix_append _ _) with hle | hle
  · exact Bool.false_ne_true <| h.1.symm.trans <| isPrefixOf_iff_prefix.mpr hle
  · exact Bool.false_ne_true <| h.2.symm.trans <| isPrefixOf_iff_prefix.mpr hle

theorem startsWith_append_of_startsWith {first : String}
    (h : startsWith first start = true) (s : String) : startsWith (first ++ s) start = true := by
  rw [startsWith, isPrefixOf_iff_prefix] at h ⊢
  rw [String.toList_append]
  exact h.trans (prefix_append _ _)

theorem stripStart_eq_none (h : startsWith s start = false) : stripStart s start = none :=
  if_neg (by simp [h])

/-- Two texts with different beginnings are different. -/
theorem ne_of_startsWith (hs : startsWith s start = false)
    (ht : startsWith t start = true) : s ≠ t := by
  rintro rfl
  exact Bool.false_ne_true (hs.symm.trans ht)

/-- The text ends with another. -/
def endsWith (s ending : String) : Bool :=
  ending.toList.isSuffixOf s.toList

theorem endsWith_eq_false {d : Char} (hs : s.toList.getLast? = some c)
    (hending : ending.toList.getLast? = some d) (hne : c ≠ d) : endsWith s ending = false := by
  rw [endsWith, Bool.eq_false_iff, ne_eq, isSuffixOf_iff_suffix]
  rintro ⟨front, hfront⟩
  rw [← hfront, getLast?_append, hending] at hs
  exact hne (by simpa using hs.symm)

theorem endsWith_iff : endsWith s ending = true ↔ ∃ front, s = front ++ ending := by
  rw [endsWith, isSuffixOf_iff_suffix]
  constructor
  · rintro ⟨front, h⟩
    exact ⟨.ofList front, String.toList_injective (by simp [h])⟩
  · rintro ⟨front, rfl⟩
    simp

/-- The parts of a text around a separator. -/
def split (s : String) (c : Char) : List String :=
  (s.toList.splitOn c).map String.ofList

section

variable {sep t : String} (hsep : sep.toList = [c])

include hsep

theorem intercalate_split : sep.intercalate (split s c) = s := by
  apply String.toList_injective
  rw [String.toList_intercalate, split, map_map, hsep]
  simp [Function.comp_def]

theorem split_append : split (s ++ sep ++ t) c = split s c ++ split t c := by
  rw [split, String.toList_append, String.toList_append, hsep, append_assoc, singleton_append,
    splitOn_append_cons_self, map_append, split, split]

/-- The last parts of a text are those of a text it ends with after a separator. -/
theorem split_isSuffix_iff :
    split t c <:+ split s c ↔ s = t ∨ ∃ front, s = front ++ (sep ++ t) := by
  constructor
  · rintro ⟨front, hfront⟩
    have hs := intercalate_split hsep (s := s)
    rw [← hfront] at hs
    by_cases hnil : front = []
    · rw [hnil, nil_append, intercalate_split hsep] at hs
      exact .inl hs.symm
    · rw [String.intercalate_append_of_ne_nil hnil (by simp [split]), intercalate_split hsep,
        String.append_assoc] at hs
      exact .inr ⟨_, hs.symm⟩
  · rintro (rfl | ⟨front, rfl⟩)
    · exact suffix_refl _
    · rw [← String.append_assoc, split_append hsep]
      exact suffix_append _ _

end

/-- Division rounding up. -/
def divCeil (n d : ℕ) : ℕ :=
  (n + d - 1) / d

end Text
