import Nanoclaw.Lib.Text
import Nanoclaw.Lib.Words

/-!
# Approval Rules for Simple Shell Commands

A rule names the words of a command. The command is split by `shlex`; every word is then
trimmed and the empty ones are dropped, so a rule can match a command that a shell runs with
other words. `shlex::split` is a parameter.
-/

namespace Nanoclaw

open List Text

def isSimpleShellCommand (command : String) : Bool :=
  !command.toList.any fun ch => ";&|><`$\n\r".toList.contains ch

def isDisallowedExecDriver : List String → Bool
  | [] => true
  | first :: rest =>
    let executable := (split first '/').getLastD first
    if executable ∈ ["sh", "bash", "zsh", "fish", "dash", "ksh", "csh", "tcsh"] then true
    else if executable ∈ ["python", "python3", "node", "ruby", "perl"] then
      rest.any (· ∈ ["-c", "-e", "-m"])
    else false

/-- The words as they are compared. -/
def cleanWords (words : List String) : List String :=
  (words.map trim).filter (· ≠ "")

section

variable (shlexSplit : String → Option (List String))

def parseSimpleShellArgv (command : String) : Option (List String) :=
  let command := trim command
  if command = "" ∨ isSimpleShellCommand command = false then none
  else
    match shlexSplit command with
    | none => none
    | some words =>
      let argv := cleanWords words
      if argv.isEmpty || isDisallowedExecDriver argv then none else some argv

/-- The two argument matchers about shell commands. -/
inductive ShellArgvMatcher where
  | simpleShellArgvExact (argv : List String)
  | simpleShellArgvPrefix (argv : List String)

/-- `ToolArgumentMatcher::matches`, for the command that the arguments hold. -/
def ShellArgvMatcher.matchesCommand (command : String) : ShellArgvMatcher → Bool
  | .simpleShellArgvExact argv => (parseSimpleShellArgv shlexSplit command).any (· == argv)
  | .simpleShellArgvPrefix argv => (parseSimpleShellArgv shlexSplit command).any argv.isPrefixOf

/-- Trimming a command that is then simple changes its words by white space only. -/
def TrimsWords : Prop :=
  ∀ command words, isSimpleShellCommand (trim command) = true →
    shlexSplit (trim command) = some words → cleanWords words ≠ [] →
    ∃ words', shlexSplit command = some words' ∧ cleanWords words' = cleanWords words

end

/-- A word that is compared as it is. -/
def IsClean (word : String) : Prop :=
  word ≠ "" ∧ trim word = word

namespace ShellArgvMatcher

/-- The words that a shell passes are those of the rule. -/
def Fits (words : List String) : ShellArgvMatcher → Prop
  | .simpleShellArgvExact argv => words = argv
  | .simpleShellArgvPrefix argv => argv <+: words

/-- The words of a command that the rule is about. -/
def named (words : List String) : ShellArgvMatcher → List String
  | .simpleShellArgvExact _ => words
  | .simpleShellArgvPrefix argv => words.take argv.length

end ShellArgvMatcher

open ShellArgvMatcher

variable {shlexSplit : String → Option (List String)} {words argv : List String} {word : String}

theorem isClean_of_mem (h : word ∈ cleanWords words) : IsClean word := by
  obtain ⟨hmem, hne⟩ := mem_filter.mp h
  obtain ⟨_, -, rfl⟩ := mem_map.mp hmem
  exact ⟨of_decide_eq_true hne, trim_trim _⟩

theorem cleanWords_eq_self (h : ∀ word ∈ words, IsClean word) : cleanWords words = words := by
  rw [cleanWords, (map_congr_left fun word hword => (h word hword).2).trans (map_id' _),
    filter_eq_self]
  exact fun word hword => decide_eq_true (h word hword).1

theorem cleanWords_append (words later : List String) :
    cleanWords (words ++ later) = cleanWords words ++ cleanWords later := by
  simp [cleanWords]

theorem prefix_words_iff (h : argv <+: cleanWords words) :
    argv <+: words ↔ ∀ word ∈ words.take argv.length, IsClean word := by
  constructor
  · intro hwords word hword
    rw [← prefix_iff_eq_take.mp hwords] at hword
    exact isClean_of_mem (h.subset hword)
  · intro hclean
    rw [← take_append_drop argv.length words, cleanWords_append, cleanWords_eq_self hclean] at h
    rcases le_total argv.length words.length with hle | hle
    · exact (prefix_of_prefix_length_le h (prefix_append _ _) (by simp [hle])).trans
        ⟨_, take_append_drop _ _⟩
    · rwa [drop_eq_nil_of_le hle, take_of_length_le hle, show cleanWords [] = [] from rfl,
        append_nil] at h

theorem parseSimpleShellArgv_eq_some {command : String}
    (h : parseSimpleShellArgv shlexSplit command = some argv) :
    isSimpleShellCommand (trim command) = true ∧
      ∃ words, shlexSplit (trim command) = some words ∧ cleanWords words = argv ∧ argv ≠ [] := by
  simp only [parseSimpleShellArgv] at h
  split at h
  · cases h
  next hsimple =>
    cases hwords : shlexSplit (trim command) with
    | none => simp [hwords] at h
    | some words =>
      simp only [hwords] at h
      split at h
      · cases h
      next hargv =>
        cases h
        simp_all

/-- **A rule that matches a command** fits its words exactly if they are compared as they are. -/
theorem matching_rule_fits_iff (shlexSplit : String → Option (List String))
    (hsplit : TrimsWords shlexSplit) (command : String) (rule : ShellArgvMatcher)
    (hmatch : rule.matchesCommand shlexSplit command = true) :
    isSimpleShellCommand (trim command) = true ∧ ∃ words, shlexSplit command = some words ∧
      (rule.Fits words ↔ ∀ word ∈ rule.named words, IsClean word) := by
  obtain ⟨argv, hparse, hfits⟩ : ∃ argv, parseSimpleShellArgv shlexSplit command = some argv ∧
      rule.Fits argv := by
    cases rule <;> simp only [matchesCommand] at hmatch <;>
      cases hparse : parseSimpleShellArgv shlexSplit command <;> rw [hparse] at hmatch
    all_goals first | cases hmatch | refine ⟨_, rfl, ?_⟩
    · exact eq_of_beq hmatch
    · exact isPrefixOf_iff_prefix.mp hmatch
  obtain ⟨hsimple, trimmed, htrimmed, rfl, hne⟩ := parseSimpleShellArgv_eq_some hparse
  obtain ⟨words, hwords, hclean⟩ := hsplit command trimmed hsimple htrimmed hne
  refine ⟨hsimple, words, hwords, ?_⟩
  rw [← hclean] at hfits
  cases rule with
  | simpleShellArgvExact expected =>
    cases hfits
    exact ⟨fun h word hword => isClean_of_mem (h ▸ hword), fun h => (cleanWords_eq_self h).symm⟩
  | simpleShellArgvPrefix expected => exact prefix_words_iff hfits

/-- Words that are only split at white space lose nothing by the trimming. -/
theorem splitWhitespace_trim (command : String) :
    splitWhitespace (trim command) = splitWhitespace command := by
  refine congrArg (map String.ofList) ?_
  rw [trim, trimMatches, String.toList_ofList]
  exact (Words.words_rdropWhile _).trans (Words.words_dropWhile _)

/-- The command is split at its blanks. -/
theorem matching_rule_fits_git :
    (simpleShellArgvPrefix ["git", "log"]).matchesCommand (some ∘ splitWhitespace)
      " git  log -1" = true ∧ ∃ words, some (splitWhitespace " git  log -1") = some words ∧
        (["git", "log"] <+: words ↔ ∀ word ∈ words.take 2, IsClean word) :=
  ⟨by decide +kernel, (matching_rule_fits_iff (some ∘ splitWhitespace)
    (fun command words _ h _ => ⟨words, (congrArg some (splitWhitespace_trim command)).symm.trans h,
      rfl⟩) " git  log -1" (.simpleShellArgvPrefix ["git", "log"]) (by decide +kernel)).2⟩

/-- **An empty word is not compared**: a shell passes one to `git` here. -/
theorem empty_word_is_dropped :
    (simpleShellArgvExact ["git"]).matchesCommand (fun _ => some ["git", ""])
      "git ''" = true ∧ ¬ (simpleShellArgvExact ["git"]).Fits ["git", ""] :=
  ⟨by decide +kernel, nofun⟩

end Nanoclaw
