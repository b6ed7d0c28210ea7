import Mathlib.Data.List.DropRight
import Mathlib.Data.List.Infix

/-!
# Words of a Sequence

A sequence is cut into words at the elements that satisfy `blank`, and the words are put together
again with one separator between them (`collapse`).
-/

namespace Words

open List

variable {α : Type} (blank : α → Bool) (sep : α)

/-- The maximal runs of elements that are not blank. -/
def words (xs : List α) : List (List α) :=
  (xs.splitOnP blank).filter fun word => !word.isEmpty

/-- The words with one separator between them. -/
def collapse (xs : List α) : List α :=
  [sep].intercalate (words blank xs)

variable {blank} {sep}

@[simp] theorem collapse_nil : collapse blank sep [] = [] := rfl

variable {c : α}

theorem words_append_blank (hc : blank c = true) (xs ys : List α) :
    words blank (xs ++ c :: ys) = words blank xs ++ words blank ys := by
  rw [words, splitOnP_append_cons _ _ hc, filter_append]
  rfl

/-- Blanks at the beginning are not in a word. -/
theorem words_dropWhile (xs : List α) : words blank (xs.dropWhile blank) = words blank xs := by
  induction xs with
  | nil => rfl
  | cons c xs ih =>
    rw [dropWhile_cons]
    split
    next hc => exact ih.trans (words_append_blank hc [] xs).symm
    · rfl

/-- Blanks at the end are not in a word. -/
theorem words_rdropWhile (xs : List α) : words blank (xs.rdropWhile blank) = words blank xs := by
  induction xs using reverseRecOn with
  | nil => rfl
  | append_singleton xs c ih =>
    rw [rdropWhile_concat]
    split
    next hc => exact ih.trans ((words_append_blank hc xs []).trans (append_nil _)).symm
    · rfl

variable {xs : List α} {d : α} {pattern : List α}

/-- A sequence without blanks is one word. -/
theorem words_of_forall (h : ∀ c ∈ xs, blank c = false) :
    words blank xs = if xs = [] then [] else [xs] := by
  rw [words, splitOnP_eq_singleton h]
  cases xs <;> rfl

/-- The first word has the elements up to the first blank. -/
theorem exists_words_cons (hc : blank c = false) (xs : List α) :
    ∃ word rest, xs.splitOnP blank = word :: rest ∧
      words blank (c :: xs) = (c :: word) :: rest.filter fun word => !word.isEmpty := by
  obtain ⟨word, rest, hrest⟩ := exists_cons_of_ne_nil (splitOnP_ne_nil blank xs)
  refine ⟨word, rest, hrest, ?_⟩
  rw [words, splitOnP_cons_eq_if_modifyHead, if_neg (by simp [hc]), hrest]
  rfl

/-! ### Collapsing, one element at a time -/

theorem intercalate_singleton_cons (word : List α) (rest : List (List α)) :
    [sep].intercalate (word :: rest) =
      word ++ if rest = [] then [] else sep :: [sep].intercalate rest := by
  cases rest with
  | nil => simp
  | cons => simp [intercalate_cons_cons]

theorem isInfix_intercalate {word : List α} {words : List (List α)} (h : word ∈ words) :
    word <:+: [sep].intercalate words := by
  induction words with
  | nil => cases h
  | cons first rest ih =>
    rw [intercalate_singleton_cons]
    rcases mem_cons.mp h with rfl | hrest
    · exact (prefix_append _ _).isInfix
    · rw [if_neg (ne_nil_of_mem hrest)]
      exact (ih hrest).trans ((suffix_cons _ _).trans (suffix_append _ _)).isInfix

theorem collapse_cons_blank (hc : blank c = true) (xs : List α) :
    collapse blank sep (c :: xs) = collapse blank sep xs := by
  have hwords : words blank (c :: xs) = words blank xs := words_append_blank hc [] xs
  rw [collapse, hwords, collapse]

theorem collapse_cons_word (hc : blank c = false) (hd : blank d = false) (xs : List α) :
    collapse blank sep (c :: d :: xs) = c :: collapse blank sep (d :: xs) := by
  obtain ⟨word, rest, hsplit, hwords⟩ := exists_words_cons hd xs
  obtain ⟨word', rest', hsplit', hwords'⟩ := exists_words_cons hc (d :: xs)
  rw [splitOnP_cons_eq_if_modifyHead, if_neg (by simp [hd]), hsplit] at hsplit'
  cases hsplit'
  rw [collapse, collapse, hwords, hwords', intercalate_singleton_cons, intercalate_singleton_cons]
  rfl

theorem collapse_cons_end (hc : blank c = false) (hd : blank d = true) (xs : List α) :
    collapse blank sep (c :: d :: xs) =
      c :: if collapse blank sep xs = [] then [] else sep :: collapse blank sep xs := by
  have hnil : collapse blank sep xs = [] ↔ words blank xs = [] := by
    rw [collapse]
    cases hwords : words blank xs with
    | nil => simp
    | cons word rest =>
      have hmem : word ∈ words blank xs := by rw [hwords]; exact mem_cons_self
      have hword := (mem_filter.mp hmem).2
      rw [intercalate_singleton_cons]
      simpa using fun h => absurd h (by simpa using hword)
  have hc' : words blank [c] = [[c]] := words_of_forall (by simpa using hc)
  simp only [hnil]
  have hwords : words blank (c :: d :: xs) = [c] :: words blank xs := by
    rw [show c :: d :: xs = [c] ++ d :: xs from rfl, words_append_blank hd, hc']
    rfl
  rw [collapse, hwords, intercalate_singleton_cons]
  rfl

theorem collapse_singleton (hc : blank c = false) : collapse blank sep [c] = [c] := by
  rw [collapse, words_of_forall (by simpa using hc)]
  rfl

/-! ### Patterns -/

/-- Collapsing keeps the end of a sequence. -/
theorem collapse_isSuffix_cons (c : α) (xs : List α) :
    collapse blank sep xs <:+ collapse blank sep (c :: xs) := by
  cases hc : blank c with
  | true => rw [collapse_cons_blank hc]
  | false =>
    cases xs with
    | nil => exact nil_suffix
    | cons d ys =>
      cases hd : blank d with
      | false =>
        rw [collapse_cons_word hc hd]
        exact suffix_cons _ _
      | true =>
        rw [collapse_cons_end hc hd, collapse_cons_blank hd]
        split
        next h => rw [h]; exact nil_suffix
        · exact (suffix_cons _ _).trans (suffix_cons _ _)

theorem collapse_isSuffix_append (xs ys : List α) :
    collapse blank sep ys <:+ collapse blank sep (xs ++ ys) := by
  induction xs with
  | nil => exact suffix_rfl
  | cons c xs ih => exact ih.trans (collapse_isSuffix_cons c (xs ++ ys))

theorem length_collapse_le (xs : List α) : (collapse blank sep xs).length ≤ xs.length := by
  induction xs using twoStepInduction with
  | nil => simp
  | singleton c =>
    cases hc : blank c with
    | true => simp [collapse_cons_blank hc]
    | false => simp [collapse_singleton hc]
  | cons_cons c d xs ih ih' =>
    cases hc : blank c with
    | true =>
      rw [collapse_cons_blank hc]
      exact (ih' d).trans (Nat.le_succ _)
    | false =>
      cases hd : blank d with
      | false =>
        rw [collapse_cons_word hc hd]
        simpa using ih' d
      | true =>
        rw [collapse_cons_end hc hd]
        split
        · simp
        · simpa using ih

/-- A collapsed sequence starts with a word. -/
theorem blank_head_of_collapse (h : collapse blank sep (c :: xs) = c :: xs) : blank c = false := by
  by_contra hc
  have hle : (collapse blank sep xs).length ≤ xs.length := length_collapse_le xs
  rw [← collapse_cons_blank (by simpa using hc), h, length_cons] at hle
  omega

/-- **A collapsed pattern at the start of a sequence** stays there. -/
theorem isPrefix_collapse_append (h : collapse blank sep pattern = pattern) (xs : List α) :
    pattern <+: collapse blank sep (pattern ++ xs) := by
  induction pattern using twoStepInduction with
  | nil => exact nil_prefix
  | singleton c =>
    have hc := blank_head_of_collapse h
    cases xs with
    | nil => simp [collapse_singleton hc]
    | cons d xs =>
      cases hd : blank d with
      | false => simp [collapse_cons_word hc hd]
      | true => simp [collapse_cons_end hc hd]
  | cons_cons c d pattern ih ih' =>
    have hc := blank_head_of_collapse h
    rw [cons_append, cons_append]
    cases hd : blank d with
    | false =>
      rw [collapse_cons_word hc hd] at h ⊢
      exact cons_prefix_cons.mpr ⟨rfl, ih' d (cons.inj h).2⟩
    | true =>
      rw [collapse_cons_end hc hd] at h ⊢
      have hrest := (cons.inj h).2
      split at hrest
      · cases hrest
      next hne =>
        obtain ⟨rfl, hpattern⟩ := cons.inj hrest
        have hkept := ih hpattern
        rw [if_neg fun hnil => hne (by rw [hpattern]; simpa [hnil] using hkept)]
        exact cons_prefix_cons.mpr ⟨rfl, cons_prefix_cons.mpr ⟨rfl, hkept⟩⟩

/-- **A collapsed pattern is found in the collapsed sequence** wherever it is found in the
sequence. -/
theorem collapse_isInfix (h : collapse blank sep pattern = pattern) (hfound : pattern <:+: xs) :
    pattern <:+: collapse blank sep xs := by
  obtain ⟨before, after, rfl⟩ := hfound
  rw [append_assoc]
  exact (isPrefix_collapse_append h after).isInfix.trans (collapse_isSuffix_append _ _).isInfix

/-! ### Maps that work word by word -/

/-- A map that keeps the blanks and maps the words between them to words. -/
structure WordMap (blank : α → Bool) (f : List α → List α) : Prop where
  blanks : ∀ {c : α}, blank c = true → ∀ xs ys, f (xs ++ c :: ys) = f xs ++ c :: f ys
  word : ∀ {xs : List α}, (∀ c ∈ xs, blank c = false) → ∀ c ∈ f xs, blank c = false
  nil_iff : ∀ {xs : List α}, f xs = [] ↔ xs = []

namespace WordMap

/-- Mapping every element, blanks to themselves and others to others. -/
theorem of_map {g : α → α} (hblank : ∀ c, blank c = true → g c = c)
    (hword : ∀ c, blank c = false → blank (g c) = false) : WordMap blank (map g) where
  blanks {c} hc xs ys := by rw [map_append, map_cons, hblank c hc]
  word hxs := forall_mem_map.mpr fun d hd => hword d (hxs d hd)
  nil_iff := map_eq_nil_iff

variable {f : List α → List α} (h : WordMap blank f)

include h

theorem words_map (xs : List α) : words blank (f xs) = (words blank xs).map f := by
  by_cases hblank : ∃ c ∈ xs, blank c = true
  · obtain ⟨c, hmem, hc⟩ := hblank
    obtain ⟨before, after, hxs⟩ := append_of_mem hmem
    have hlength : xs.length = before.length + (after.length + 1) := by simp [hxs]
    rw [hxs, h.blanks hc, words_append_blank hc, words_append_blank hc, map_append,
      words_map before, words_map after]
  · have hword : ∀ c ∈ xs, blank c = false := by simpa using hblank
    rw [words_of_forall hword, words_of_forall (h.word hword)]
    simp only [h.nil_iff]
    split <;> rfl
termination_by xs.length
decreasing_by all_goals omega

theorem intercalate_map (hsep : blank sep = true) (words : List (List α)) :
    f ([sep].intercalate words) = [sep].intercalate (words.map f) := by
  induction words with
  | nil => exact h.nil_iff.mpr rfl
  | cons word rest ih =>
    rw [map_cons, intercalate_singleton_cons, intercalate_singleton_cons, ← ih]
    cases rest with
    | nil => simp
    | cons => exact h.blanks hsep _ _

/-- **Mapping the words** and collapsing commute. -/
theorem collapse_map (hsep : blank sep = true) (xs : List α) :
    f (collapse blank sep xs) = collapse blank sep (f xs) := by
  rw [collapse, collapse, h.intercalate_map hsep, h.words_map]

end WordMap

end Words
