import Mathlib.Data.List.Nodup

/-!
# Questions and Answers in a Log

Every entry of a log asks some questions and answers some, named by keys. The log is `Paired` if
every question has exactly one answer, in a later entry. While answers are still to come,
`Pending` says which questions are exempt. Entries that do neither do not matter (`loud`).
-/

/-- An entry of a log: the questions it asks and the questions it answers. -/
structure Exchange (κ : Type) where
  asks : List κ
  answers : List κ
  deriving DecidableEq

namespace Exchange

open List

variable {κ : Type}

/-- The answers of a log, in order. -/
def answersOf (log : List (Exchange κ)) : List κ :=
  log.flatMap answers

@[simp] theorem answersOf_nil : answersOf ([] : List (Exchange κ)) = [] := rfl

@[simp] theorem answersOf_cons (entry : Exchange κ) (log : List (Exchange κ)) :
    answersOf (entry :: log) = entry.answers ++ answersOf log := rfl

@[simp] theorem answersOf_append (log log' : List (Exchange κ)) :
    answersOf (log ++ log') = answersOf log ++ answersOf log' :=
  flatMap_append

/-! ### Silent entries -/

/-- The entry neither asks nor answers. -/
def silent (entry : Exchange κ) : Bool :=
  entry.asks.isEmpty && entry.answers.isEmpty

variable {entry : Exchange κ}

theorem silent_eq_true : entry.silent = true ↔ entry.asks = [] ∧ entry.answers = [] := by
  rw [silent, Bool.and_eq_true, List.isEmpty_iff, List.isEmpty_iff]

/-- The log without its silent entries. -/
def loud (log : List (Exchange κ)) : List (Exchange κ) :=
  log.filter fun entry => !entry.silent

@[simp] theorem loud_append (log log' : List (Exchange κ)) :
    loud (log ++ log') = loud log ++ loud log' :=
  filter_append _ _

theorem loud_silent (h : entry.silent = true) : loud [entry] = [] := by
  simp [loud, h]

theorem loud_of_not_silent (h : entry.silent = false) : loud [entry] = [entry] := by
  simp [loud, h]

@[simp] theorem answersOf_loud (log : List (Exchange κ)) :
    answersOf (loud log) = answersOf log := by
  induction log with
  | nil => rfl
  | cons entry log ih =>
    rw [← singleton_append, loud_append, answersOf_append, ih]
    cases hs : entry.silent with
    | true => simp [loud_silent hs, (silent_eq_true.mp hs).2]
    | false => simp [loud_of_not_silent hs]

variable {log : List (Exchange κ)}

/-- A cut of a log at its last entry or before. -/
theorem split_snoc {before later : List (Exchange κ)} {last : Exchange κ}
    (h : log ++ [last] = before ++ entry :: later) :
    entry = last ∧ later = [] ∨ ∃ middle, later = middle ++ [last] ∧
      log = before ++ entry :: middle := by
  rcases eq_nil_or_concat later with rfl | ⟨middle, final, rfl⟩
  · exact .inl ⟨(append_inj_right' h rfl |> singleton_inj.mp).symm, rfl⟩
  · right
    have hassoc : before ++ entry :: middle.concat final =
        (before ++ entry :: middle) ++ [final] := by
      simp
    rw [hassoc] at h
    have hlast := singleton_inj.mp (append_inj_right' h rfl)
    exact ⟨middle, by rw [hlast, concat_eq_append], append_inj_left' h rfl⟩

variable [DecidableEq κ] {waiting : List κ}

/-! ### Paired logs -/

/-- The question has exactly one answer in the log, and it comes in the given later part. -/
def Settled (log later : List (Exchange κ)) (c : κ) : Prop :=
  (answersOf log).count c = 1 ∧ c ∈ answersOf later

/-- **Every question has exactly one answer, in a later entry.** -/
def Paired (log : List (Exchange κ)) : Prop :=
  ∀ before entry later, log = before ++ entry :: later → ∀ c ∈ entry.asks, Settled log later c

/-- The log is paired up to some questions, which have no answer yet. -/
structure Pending (waiting : List κ) (log : List (Exchange κ)) : Prop where
  nodup : waiting.Nodup
  unanswered : ∀ c ∈ waiting, c ∉ answersOf log
  settled : ∀ before entry later, log = before ++ entry :: later →
    ∀ c ∈ entry.asks, c ∉ waiting → Settled log later c

theorem Pending.paired (h : Pending [] log) : Paired log :=
  fun before entry later heq c hc => h.settled before entry later heq c hc not_mem_nil

theorem Paired.pending (h : Paired log)
    (hn : waiting.Nodup) (hfresh : ∀ c ∈ waiting, c ∉ answersOf log) : Pending waiting log :=
  ⟨hn, hfresh, fun before entry later heq c hc _ => h before entry later heq c hc⟩

/-- Asking questions that are waiting for their answers anyway. -/
theorem Pending.ask {asks : List κ} (h : Pending waiting log)
    (hasks : ∀ c ∈ asks, c ∈ waiting) : Pending waiting (log ++ [⟨asks, []⟩]) := by
  refine ⟨h.nodup, by simpa using h.unanswered, fun before entry later heq c hc hw => ?_⟩
  rcases split_snoc heq with ⟨rfl, rfl⟩ | ⟨middle, rfl, hlog⟩
  · exact absurd (hasks c hc) hw
  · have hsettled := h.settled before entry middle hlog c hc hw
    exact ⟨by simpa using hsettled.1, by simpa using hsettled.2⟩

theorem Pending.answer {c : κ}
    (h : Pending (c :: waiting) log) : Pending waiting (log ++ [⟨[], [c]⟩]) := by
  obtain ⟨hc, hn⟩ := nodup_cons.mp h.nodup
  refine ⟨hn, fun d hd => ?_, fun before entry later heq d hd hw => ?_⟩
  · have hne : d ≠ c := fun heq => hc (heq ▸ hd)
    simpa [hne] using h.unanswered d (mem_cons_of_mem _ hd)
  · rcases split_snoc heq with ⟨rfl, -⟩ | ⟨middle, rfl, hlog⟩
    · cases hd
    by_cases hdc : d = c
    · subst hdc
      have hzero : (answersOf log).count d = 0 := count_eq_zero.mpr (h.unanswered d mem_cons_self)
      exact ⟨by simp [count_append, hzero], by simp⟩
    · have hw' : d ∉ c :: waiting := by simp [hdc, hw]
      have hsettled := h.settled before entry middle hlog d hd hw'
      have hcount : [c].count d = 0 := by simp [Ne.symm hdc]
      refine ⟨?_, by simpa using Or.inl hsettled.2⟩
      simpa [count_append, hcount] using hsettled.1

theorem Paired.of_suffix {log' : List (Exchange κ)} (h : Paired log) (hs : log' <:+ log) :
    Paired log' := by
  obtain ⟨first, rfl⟩ := hs
  intro before entry later heq c hc
  obtain ⟨hcount, hmem⟩ := h (first ++ before) entry later (by simp [heq]) c hc
  have hpos : 0 < (answersOf log').count c := by
    rw [count_pos_iff, heq]
    simp [hmem]
  rw [answersOf_append, count_append] at hcount
  exact ⟨by omega, hmem⟩

/-- **Silent entries do not matter.** -/
theorem paired_loud_iff : Paired (loud log) ↔ Paired log := by
  constructor
  · intro h before entry later heq c hc
    have hentry : entry.silent = false := by
      rw [Bool.eq_false_iff]
      intro hs
      rw [(silent_eq_true.mp hs).1] at hc
      cases hc
    have hloud : loud log = loud before ++ entry :: loud later := by
      rw [heq, ← singleton_append, loud_append, loud_append, loud_of_not_silent hentry]
      rfl
    simpa [Settled] using h _ _ _ hloud c hc
  · intro h before entry later heq c hc
    obtain ⟨first, rest, rfl, -, hrest⟩ := filter_eq_append_iff.mp heq
    obtain ⟨quiet, after, rfl, -, -, rfl⟩ := filter_eq_cons_iff.mp hrest
    have hsettled := h (first ++ quiet) entry after (by simp) c hc
    have hafter : answersOf (after.filter fun entry => !entry.silent) = answersOf after :=
      answersOf_loud after
    simpa [Settled, hafter] using hsettled

end Exchange
