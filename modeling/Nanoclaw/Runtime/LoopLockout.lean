import Mathlib.Data.Set.Finite.Basic
import Nanoclaw.Lib.System
import Nanoclaw.Runtime.LoopDetection

/-!
# Can the Loop Detector Lock the Agent Out?

The detector refuses a call that it judges critical, and a refused call is not recorded. A state
in which every call is critical is therefore not left before the session is reset. This module
says for which configurations such a state can be reached.

A call that has not been made before is critical only if both thresholds are at most two, or if
the circuit breaker has tripped. The breaker looks at outcomes only, so no call can end a run of
equal outcomes that it has refused.
-/

namespace Nanoclaw

open List Option

/-- What becomes of a call that the detector lets pass. -/
inductive CallOutcome where
  /-- The flow leaves with an error before the tool has run. -/
  | lost
  | result (result : ToolResult)
  | error (text : String)

/-- What the runtime does to its detector. -/
inductive DetectorAction where
  | call (call : ToolCall) (outcome : CallOutcome)
  | reset

variable {pattern : String} {call : ToolCall}

namespace ToolLoopDetector

variable (detector : ToolLoopDetector)

def judgesCritical (call : ToolCall) : Bool :=
  (detector.inspect call).1.any fun signal => decide (signal.severity = .critical)

/-- The detector in the tool flow: a critical call is refused and not recorded. -/
def step : DetectorAction → ToolLoopDetector
  | .reset => detector.reset
  | .call call outcome =>
    if detector.judgesCritical call then (detector.inspect call).2
    else match outcome with
      | .lost => (detector.inspect call).2
      | .result result => (detector.inspect call).2.recordResult call result
      | .error text => (detector.inspect call).2.recordError call text

/-- **No call passes.** -/
def Locked : Prop :=
  ∀ call, detector.judgesCritical call = true

variable {detector}

theorem recordEntry_history (entry : ToolLoopEntry) :
    (detector.recordEntry entry).history = (detector.history ++ [entry]).drop
      (detector.history.length + 1 - max detector.config.historySize 1) := by
  rw [recordEntry, length_append, length_singleton]

/-! ### What the checks say -/

theorem streak_eq_nil (h : ∀ last ∈ detector.history.getLast?, last.pattern ≠ pattern) :
    detector.streak pattern = [] := by
  rw [streak]
  cases hrev : detector.history.reverse with
  | nil => rfl
  | cons last rest =>
    have hlast : detector.history.getLast? = some last := by
      rw [getLast?_eq_head?_reverse, hrev, head?_cons]
    exact takeWhile_cons_of_neg (by simpa using h last hlast)

variable {last : ToolLoopEntry} {config : LoopDetectionConfig} {front : List ToolLoopEntry}

theorem ne_last (hlast : detector.history.getLast? = some last) (hne : last.pattern ≠ pattern) :
    ∀ l ∈ detector.history.getLast?, l.pattern ≠ pattern := by
  rw [hlast]
  rintro l ⟨⟩
  exact hne

/-- A call that differs from the last one is looked at by the other two checks. -/
theorem inspect_of_ne_last (henabled : detector.config.enabled = true)
    (h : ∀ last ∈ detector.history.getLast?, last.pattern ≠ fingerprintCall call) :
    detector.inspect call = ((detector.pingPongSignal (fingerprintCall call)).or
      detector.globalCircuitBreakerSignal, detector) := by
  have hsame : detector.samePatternNoProgressSignal (fingerprintCall call) = (none, detector) := by
    simp [samePatternNoProgressSignal, streak_eq_nil h]
  simp [inspect, henabled, hsame]

theorem breaker_critical {signal : LoopSignal}
    (h : detector.globalCircuitBreakerSignal = some signal) : signal.severity = .critical := by
  rw [globalCircuitBreakerSignal] at h
  split at h
  · cases h
  split at h
  · cases h
  split at h
  · cases h
    rfl
  · cases h

/-- Left to the breaker, a call is critical if the breaker has tripped. -/
theorem any_breaker_critical : (detector.globalCircuitBreakerSignal.any fun signal =>
      decide (signal.severity = .critical)) = true ↔
      detector.globalCircuitBreakerSignal ≠ none := by
  cases h : detector.globalCircuitBreakerSignal with
  | none => simp
  | some signal => simp [breaker_critical h]

/-- The number of attempts that the alternation check counts. -/
def alternateAttempts (detector : ToolLoopDetector) (last pattern : String) : ℕ :=
  alternateLen last pattern last detector.history.reverse + 1

theorem alternateAttempts_eq (hhistory : detector.history = front ++ [last])
    (hne : last.pattern ≠ pattern) : detector.alternateAttempts last.pattern pattern =
      alternateLen last.pattern pattern pattern front.reverse + 2 := by
  rw [alternateAttempts, hhistory, reverse_append, reverse_singleton,
    singleton_append, alternateLen, if_neg (by simp), if_neg hne]

/-- A call that is not the one before the last is an alternation of length two. -/
theorem alternateAttempts_eq_two (hhistory : detector.history = front ++ [last])
    (hne : last.pattern ≠ pattern) (hfront : ∀ entry ∈ front.getLast?, entry.pattern ≠ pattern) :
    detector.alternateAttempts last.pattern pattern = 2 := by
  rw [alternateAttempts_eq hhistory hne]
  cases hrev : front.reverse with
  | nil => rfl
  | cons entry rest =>
    have hentry : entry.pattern ≠ pattern := by
      refine hfront entry ?_
      rw [getLast?_eq_head?_reverse, hrev]
      rfl
    rw [alternateLen, if_pos hentry]

/-- **A call that differs from the last one**: the alternation check speaks, or the breaker. -/
theorem judgesCritical_of_ne (henabled : detector.config.enabled = true)
    (hlast : detector.history.getLast? = some last) (hne : last.pattern ≠ fingerprintCall call) :
    detector.judgesCritical call = true ↔
      if detector.alternateAttempts last.pattern (fingerprintCall call) <
          detector.config.warningThreshold then detector.globalCircuitBreakerSignal ≠ none
      else detector.config.criticalThreshold ≤
        detector.alternateAttempts last.pattern (fingerprintCall call) := by
  rw [judgesCritical, inspect_of_ne_last henabled (ne_last hlast hne), pingPongSignal, hlast]
  dsimp only
  rw [if_neg hne, ← alternateAttempts]
  split
  · rw [none_or, any_breaker_critical]
  · rw [some_or, any_some, decide_eq_true_iff]
    split <;> simp_all

/-! ### A new call -/

/-- A call that no call before it was like. -/
def probe (n : ℕ) : ToolCall where
  id := ⟨"probe"⟩
  callId := ⟨"probe"⟩
  toolName := ⟨"read"⟩
  arguments := .number (String.ofList (List.replicate (n + 1) '1'))
  origin := .local

theorem fingerprint_probe_injective : Function.Injective fun n => fingerprintCall (probe n) := by
  intro m n h
  have hlength := congrArg (fun s : String => s.toList.length) h
  simpa [fingerprintCall, probe, Value.render, String.toList_append] using hlength

theorem exists_fresh (detector : ToolLoopDetector) :
    ∃ call, ∀ entry ∈ detector.history, entry.pattern ≠ fingerprintCall call := by
  have hinfinite : (Set.range fun n => fingerprintCall (probe n)).Infinite :=
    Set.infinite_range_of_injective fingerprint_probe_injective
  obtain ⟨_, ⟨n, rfl⟩, hn⟩ := hinfinite.exists_notMem_finset
    (detector.history.map ToolLoopEntry.pattern).toFinset
  refine ⟨probe n, fun entry hentry heq => hn ?_⟩
  rw [List.mem_toFinset]
  exact mem_map.mpr ⟨entry, hentry, heq⟩

/-- **A new call passes** unless the breaker has tripped or both thresholds are at most two. -/
theorem not_critical_of_fresh
    (hfresh : ∀ entry ∈ detector.history, entry.pattern ≠ fingerprintCall call)
    (h : detector.config.enabled = true → detector.history ≠ [] →
      (detector.config.warningThreshold ≤ 2 ∧ 2 < detector.config.criticalThreshold) ∨
      (2 < detector.config.warningThreshold ∧ detector.globalCircuitBreakerSignal = none)) :
    detector.judgesCritical call = false := by
  cases henabled : detector.config.enabled with
  | false => simp [judgesCritical, inspect, henabled]
  | true =>
    have hlast : ∀ last ∈ detector.history.getLast?, last.pattern ≠ fingerprintCall call :=
      fun last hlast => hfresh last (mem_of_mem_getLast? hlast)
    rcases eq_nil_or_concat' detector.history with hnil | ⟨front, last, hhistory⟩
    · rw [judgesCritical, inspect_of_ne_last henabled hlast]
      have hbreaker : detector.globalCircuitBreakerSignal = none := by
        simp [globalCircuitBreakerSignal, hnil]
      simp [pingPongSignal, hnil, hbreaker]
    · have hne : last.pattern ≠ fingerprintCall call := hfresh last (by simp [hhistory])
      have htwo : detector.alternateAttempts last.pattern (fingerprintCall call) = 2 := by
        refine alternateAttempts_eq_two hhistory hne fun entry hentry => hfresh entry ?_
        rw [hhistory]
        exact mem_append_left _ (mem_of_mem_getLast? hentry)
      rw [← Bool.not_eq_true, judgesCritical_of_ne henabled (by simp [hhistory]) hne, htwo]
      rcases h henabled (by simp [hhistory]) with ⟨hwarning, hcritical⟩ | ⟨hwarning, hbreaker⟩
      · rw [if_neg (by omega)]
        omega
      · rw [if_pos hwarning, hbreaker]
        exact not_not.mpr rfl

/-! ### Locked states -/

/-- The number of attempts that the repetition check counts. -/
def repeats (detector : ToolLoopDetector) (pattern : String) : ℕ :=
  (detector.streak pattern).length + 1

theorem streak_ne_nil (hlast : detector.history.getLast? = some last) :
    detector.streak last.pattern ≠ [] := by
  rw [getLast?_eq_head?_reverse] at hlast
  obtain ⟨rest, hrest⟩ := head?_eq_some_iff.mp hlast
  simp [streak, hrest]

section

variable (henabled : detector.config.enabled = true)

include henabled

section

variable (hlast : detector.history.getLast? = some last)

include hlast

/-- **The last call again**: it is critical, it earns its warning, or the breaker speaks. -/
theorem inspect_last (hpattern : last.pattern = fingerprintCall call) :
    (detector.config.criticalThreshold ≤ detector.repeats last.pattern ∧
      ∃ signal, signal.severity = .critical ∧ detector.inspect call =
        (some signal, { detector with lastWarningPattern := some last.pattern })) ∨
    (detector.repeats last.pattern < detector.config.criticalThreshold ∧
      detector.config.warningThreshold ≤ detector.repeats last.pattern ∧
      detector.lastWarningPattern ≠ some last.pattern ∧
      ∃ signal, signal.severity = .warning ∧ detector.inspect call =
        (some signal, { detector with lastWarningPattern := some last.pattern })) ∨
    (detector.repeats last.pattern < detector.config.criticalThreshold ∧
      (detector.repeats last.pattern < detector.config.warningThreshold ∨
        detector.lastWarningPattern = some last.pattern) ∧
      detector.inspect call = (detector.globalCircuitBreakerSignal, detector)) := by
  have hstreak : (detector.streak last.pattern).isEmpty = false := by
    simpa using streak_ne_nil hlast
  have hping : detector.pingPongSignal last.pattern = none := by simp [pingPongSignal, hlast]
  by_cases hcritical : detector.config.criticalThreshold ≤ (detector.streak last.pattern).length + 1
  · refine .inl ⟨hcritical, ?_⟩
    simp [inspect, henabled, ← hpattern, samePatternNoProgressSignal, hstreak, hcritical]
  by_cases hwarning : detector.config.warningThreshold ≤ (detector.streak last.pattern).length + 1 ∧
        detector.lastWarningPattern ≠ some last.pattern
  · refine .inr (.inl ⟨not_le.mp hcritical, hwarning.1, hwarning.2, ?_⟩)
    simp [inspect, henabled, ← hpattern, samePatternNoProgressSignal, hstreak, hcritical, hwarning]
  · refine .inr (.inr ⟨not_le.mp hcritical, ?_, ?_⟩)
    · rcases not_and_or.mp hwarning with hfew | hwarned
      · exact .inl (not_le.mp hfew)
      · exact .inr (not_not.mp hwarned)
    · simp only [inspect, henabled, ← hpattern, samePatternNoProgressSignal, hstreak, hcritical,
        hwarning]
      simp [hping]

theorem critical_last (hpattern : last.pattern = fingerprintCall call)
    (h : detector.config.criticalThreshold ≤ detector.repeats last.pattern) :
    detector.judgesCritical call = true := by
  rcases inspect_last henabled hlast hpattern with
    ⟨-, signal, hsignal, hinspect⟩ | ⟨hlt, -⟩ | ⟨hlt, -⟩
  · simp [judgesCritical, hinspect, hsignal]
  · omega
  · omega

/-- **Tripped breaker and no warning to earn**: the detector is locked. -/
theorem locked_of_breaker (hbreaker : detector.globalCircuitBreakerSignal ≠ none)
    (hsame : detector.repeats last.pattern < detector.config.warningThreshold ∨
      detector.lastWarningPattern = some last.pattern)
    (hother : ∀ pattern, last.pattern ≠ pattern →
      detector.alternateAttempts last.pattern pattern < detector.config.warningThreshold ∨
      detector.config.criticalThreshold ≤ detector.alternateAttempts last.pattern pattern) :
    detector.Locked := by
  intro call
  by_cases hpattern : last.pattern = fingerprintCall call
  · rcases inspect_last henabled hlast hpattern with
      ⟨hcritical, -⟩ | ⟨-, hle, hne, -⟩ | ⟨-, -, hinspect⟩
    · exact critical_last henabled hlast hpattern hcritical
    · exact (hsame.elim (not_lt.mpr hle) hne).elim
    · rw [judgesCritical, hinspect, any_breaker_critical]
      exact hbreaker
  · rw [judgesCritical_of_ne henabled hlast hpattern]
    split
    · exact hbreaker
    next h => exact (hother _ hpattern).resolve_left h

end

/-- With both thresholds at most two, one recorded call locks the detector. -/
theorem locked_of_low_thresholds (hne : detector.history ≠ [])
    (hwarning : detector.config.warningThreshold ≤ 2)
    (hcritical : detector.config.criticalThreshold ≤ 2) : detector.Locked := by
  obtain ⟨front, last, hhistory⟩ := (eq_nil_or_concat' detector.history).resolve_left hne
  have hlast : detector.history.getLast? = some last := by simp [hhistory]
  intro call
  by_cases hpattern : last.pattern = fingerprintCall call
  · have hpos := length_pos_of_ne_nil (streak_ne_nil hlast)
    exact critical_last henabled hlast hpattern (by rw [repeats]; omega)
  · have hattempts := alternateAttempts_eq hhistory hpattern
    rw [judgesCritical_of_ne henabled hlast hpattern, if_neg (by omega)]
    omega

end

section

variable (h : detector.Locked)

include h

theorem Locked.history_ne_nil : detector.history ≠ [] := by
  intro hnil
  have hpass : detector.judgesCritical (probe 0) = false :=
    not_critical_of_fresh (by simp [hnil]) fun _ hne => absurd hnil hne
  exact Bool.false_ne_true (hpass.symm.trans (h _))

theorem Locked.enabled : detector.config.enabled = true := by
  rw [← Bool.not_eq_false]
  intro hoff
  have hpass := h (probe 0)
  simp [judgesCritical, inspect, hoff] at hpass

/-- A refused call leaves a locked detector locked. -/
theorem Locked.step_call (call : ToolCall) (outcome : CallOutcome) :
    (detector.step (.call call outcome)).Locked := by
  have hstep : detector.step (.call call outcome) = (detector.inspect call).2 := by
    cases outcome <;> exact if_pos (h call)
  rw [hstep]
  obtain ⟨front, last, hhistory⟩ :=
    (eq_nil_or_concat' detector.history).resolve_left h.history_ne_nil
  have hlast : detector.history.getLast? = some last := by simp [hhistory]
  by_cases hpattern : last.pattern = fingerprintCall call
  · rcases inspect_last h.enabled hlast hpattern with
      ⟨hcritical, signal, -, hinspect⟩ | ⟨-, -, -, signal, hwarning, hinspect⟩ | ⟨-, -, hinspect⟩
    · -- the repetition check has remembered the last call, which stays critical
      rw [hinspect]
      set remembered : ToolLoopDetector :=
        { detector with lastWarningPattern := some last.pattern }
      have henabled' : remembered.config.enabled = true := h.enabled
      have hlast' : remembered.history.getLast? = some last := hlast
      intro other
      by_cases hother : last.pattern = fingerprintCall other
      · exact critical_last henabled' hlast' hother hcritical
      · rw [judgesCritical_of_ne henabled' hlast' hother]
        exact (judgesCritical_of_ne h.enabled hlast hother).mp (h other)
    · have hcritical := h call
      simp [judgesCritical, hinspect, hwarning] at hcritical
    · rw [hinspect]
      exact h
  · rw [inspect_of_ne_last h.enabled (ne_last hlast hpattern)]
    exact h

end

/-! ### Runs -/

theorem inspect_config (detector : ToolLoopDetector) (call : ToolCall) :
    (detector.inspect call).2.config = detector.config ∧
      (detector.inspect call).2.history = detector.history := by
  unfold inspect
  split
  · exact ⟨rfl, rfl⟩
  unfold samePatternNoProgressSignal
  dsimp only
  split_ifs <;> exact ⟨rfl, rfl⟩

/-- The configuration never changes, and the history is bounded. -/
structure Bounded (config : LoopDetectionConfig) (detector : ToolLoopDetector) : Prop where
  config_eq : detector.config = config
  length_le : detector.history.length ≤ max config.historySize 1

theorem Bounded.recordEntry (h : Bounded config detector)
    (entry : ToolLoopEntry) : Bounded config (detector.recordEntry entry) := by
  refine ⟨h.config_eq, ?_⟩
  rw [recordEntry_history, length_drop, length_append, h.config_eq]
  simp only [length_singleton]
  omega

theorem Bounded.step (h : Bounded config detector)
    (action : DetectorAction) : Bounded config (detector.step action) := by
  cases action with
  | reset => exact ⟨h.config_eq, Nat.zero_le _⟩
  | call call outcome =>
    have hinspect : Bounded config (detector.inspect call).2 := by
      obtain ⟨hconfig, hhistory⟩ := detector.inspect_config call
      exact ⟨hconfig.trans h.config_eq, hhistory ▸ h.length_le⟩
    cases outcome <;> rw [ToolLoopDetector.step] <;> split
    all_goals first | exact hinspect | exact hinspect.recordEntry _

end ToolLoopDetector

/-- **The configurations that never lock**: off; or a call that differs from the last one earns a
warning and is not critical; or the breaker cannot trip. -/
def LoopDetectionConfig.NeverLocks (config : LoopDetectionConfig) : Prop :=
  config.enabled = false ∨
  (config.warningThreshold ≤ 2 ∧ 2 < config.criticalThreshold) ∨
  (2 < config.warningThreshold ∧ (config.globalCircuitBreakerThreshold ≤ 1 ∨
    max config.historySize 1 + 1 < config.globalCircuitBreakerThreshold))

namespace ToolLoopDetector

variable {config : LoopDetectionConfig} {detector : ToolLoopDetector}

theorem Bounded.breaker_eq_none (h : Bounded config detector)
    (hthreshold : config.globalCircuitBreakerThreshold ≤ 1 ∨
      max config.historySize 1 + 1 < config.globalCircuitBreakerThreshold) :
    detector.globalCircuitBreakerSignal = none := by
  have hlength := h.length_le
  rw [globalCircuitBreakerSignal, h.config_eq]
  rcases hthreshold with hone | hlarge
  · have hmax : max config.globalCircuitBreakerThreshold 1 = 1 := by omega
    simp [hmax]
  · exact if_pos (by omega)

theorem Bounded.exists_passes (h : Bounded config detector) (hconfig : config.NeverLocks) :
    ∃ call, detector.judgesCritical call = false := by
  obtain ⟨call, hfresh⟩ := detector.exists_fresh
  refine ⟨call, not_critical_of_fresh hfresh fun henabled _ => ?_⟩
  rw [h.config_eq] at henabled ⊢
  rcases hconfig with hoff | hlow | ⟨hwarning, hthreshold⟩
  · rw [hoff] at henabled
    cases henabled
  · exact .inl hlow
  · exact .inr ⟨hwarning, h.breaker_eq_none hthreshold⟩

/-! ### The way into a locked state -/

def probeEntry (n : ℕ) : ToolLoopEntry where
  pattern := fingerprintCall (probe n)
  outcome := "error:"

variable {n : ℕ}

theorem probeEntry_pattern_ne {m : ℕ} (h : m ≠ n) :
    (probeEntry m).pattern ≠ (probeEntry n).pattern :=
  fun heq => h (fingerprint_probe_injective heq)

/-- New calls that all fail with the same text. -/
def probes (n : ℕ) : List DetectorAction :=
  (List.range n).map fun i => .call (probe i) (.error "")

/-- After `n` of them. -/
def probed (config : LoopDetectionConfig) (n : ℕ) : ToolLoopDetector where
  config := config
  history := (List.range n).map probeEntry

theorem probed_succ_history (n : ℕ) :
    (probed config (n + 1)).history = (range n).map probeEntry ++ [probeEntry n] := by
  simp [probed, range_succ]

theorem probed_breaker (h : n + 1 < config.globalCircuitBreakerThreshold) :
    (probed config n).globalCircuitBreakerSignal = none := by
  refine if_pos ?_
  simp only [probed, length_map, length_range]
  omega

/-- Equal outcomes throughout the history trip the breaker. -/
theorem breaker_trips {outcome : String}
    (houtcome : ∀ entry ∈ detector.history, entry.outcome = outcome)
    (htwo : 2 ≤ detector.config.globalCircuitBreakerThreshold)
    (hlength : detector.config.globalCircuitBreakerThreshold ≤ detector.history.length + 1) :
    detector.globalCircuitBreakerSignal ≠ none := by
  have hmax : max detector.config.globalCircuitBreakerThreshold 1 =
      detector.config.globalCircuitBreakerThreshold := by omega
  rw [globalCircuitBreakerSignal, hmax, if_neg (by omega)]
  have hmem : ∀ entry ∈ detector.history.reverse.take
      (detector.config.globalCircuitBreakerThreshold - 1), entry.outcome = outcome :=
    fun entry hentry => houtcome entry (mem_reverse.mp (mem_of_mem_take hentry))
  split
  next hnil =>
    have := congrArg length hnil
    simp only [length_take, length_reverse, length_nil] at this
    omega
  next first rest hcons =>
    rw [hcons] at hmem
    obtain ⟨hfirst, hrest⟩ := forall_mem_cons.mp hmem
    rw [if_pos]
    · exact some_ne_none _
    · simpa [hfirst] using hrest

theorem recordEntry_of_room {entry : ToolLoopEntry}
    (h : detector.history.length < max detector.config.historySize 1) :
    (detector.recordEntry entry).history = detector.history ++ [entry] := by
  rw [recordEntry_history, Nat.sub_eq_zero_of_le (by omega), drop_zero]

theorem recordEntry_probed (h : n < max config.historySize 1) (entry : ToolLoopEntry) :
    (probed config n).recordEntry entry =
      { probed config n with history := (probed config n).history ++ [entry] } :=
  congrArg (fun history => { probed config n with history })
    (recordEntry_of_room (by simpa [probed] using h))

theorem step_probe (hwarning : 2 < config.warningThreshold)
    (hthreshold : n + 2 ≤ config.globalCircuitBreakerThreshold)
    (hsize : n < max config.historySize 1) :
    (probed config n).step (.call (probe n) (.error "")) = probed config (n + 1) := by
  have hfresh : ∀ entry ∈ (probed config n).history, entry.pattern ≠ fingerprintCall (probe n) :=
    forall_mem_map.mpr fun i hi => probeEntry_pattern_ne (mem_range.mp hi).ne
  have hpass : (probed config n).judgesCritical (probe n) = false :=
    not_critical_of_fresh hfresh fun _ _ => .inr ⟨hwarning, probed_breaker (by omega)⟩
  have hinspect : ((probed config n).inspect (probe n)).2 = probed config n := by
    cases henabled : config.enabled with
    | false =>
      have : (probed config n).config.enabled = false := henabled
      simp [inspect, this]
    | true =>
      rw [inspect_of_ne_last henabled fun last hlast =>
        hfresh last (mem_of_mem_getLast? hlast)]
  rw [step, hpass, hinspect]
  refine (recordEntry_probed hsize (probeEntry n)).trans ?_
  simp [probed, range_succ]

theorem run_probes (hwarning : 2 < config.warningThreshold)
    (hthreshold : n + 1 ≤ config.globalCircuitBreakerThreshold)
    (hsize : n ≤ max config.historySize 1) :
    System.run step { config } (probes n) = probed config n := by
  induction n with
  | zero => rfl
  | succ n ih =>
    have hprobes : probes (n + 1) = probes n ++ [.call (probe n) (.error "")] := by
      simp [probes, range_succ]
    rw [hprobes, System.run_append, ih (by omega) (by omega)]
    exact step_probe hwarning (by omega) (by omega)

theorem probed_getLast (n : ℕ) :
    (probed config (n + 1)).history.getLast? = some (probeEntry n) := by
  simp [probed_succ_history]

theorem probed_outcome (n : ℕ) : ∀ entry ∈ (probed config n).history, entry.outcome = "error:" :=
  forall_mem_map.mpr fun _ _ => rfl

theorem probed_repeats (n : ℕ) : (probed config (n + 1)).repeats (probeEntry n).pattern = 2 := by
  rw [repeats, streak, probed_succ_history, reverse_append, reverse_singleton,
    singleton_append, takeWhile_cons_of_pos (by simp)]
  cases n with
  | zero => rfl
  | succ n =>
    have hne : ((probeEntry n).pattern == (probeEntry (n + 1)).pattern) = false :=
      beq_false_of_ne (probeEntry_pattern_ne (Nat.lt_succ_self n).ne)
    simp [hne]

/-- New calls only make alternations of length three at most. -/
theorem probed_alternate (n : ℕ) (hne : (probeEntry n).pattern ≠ pattern) :
    (probed config (n + 1)).alternateAttempts (probeEntry n).pattern pattern ≤ min 3 (n + 2) := by
  rw [alternateAttempts_eq (probed_succ_history n) hne]
  match n with
  | 0 => exact le_rfl
  | 1 =>
    have hone : ((range 1).map probeEntry).reverse = [probeEntry 0] := rfl
    rw [hone, alternateLen]
    split
    · decide
    · exact le_rfl
  | n + 2 =>
    have hlast : ((range (n + 2)).map probeEntry).reverse =
        probeEntry (n + 1) :: probeEntry n :: ((range n).map probeEntry).reverse := by
      simp [range_succ]
    have hother : (probeEntry n).pattern ≠ (probeEntry (n + 2)).pattern :=
      probeEntry_pattern_ne (by omega)
    rw [hlast, alternateLen]
    split
    · omega
    · rw [if_pos rfl, alternateLen, if_pos hother]
      omega

/-- New calls alone lock the detector, unless the one before the last can earn a warning. -/
theorem locked_probed (henabled : config.enabled = true) (hwarning : 2 < config.warningThreshold)
    (htwo : 2 ≤ config.globalCircuitBreakerThreshold)
    (h : 3 < config.warningThreshold ∨ config.criticalThreshold ≤ 3 ∨
      config.globalCircuitBreakerThreshold = 2) :
    (probed config (config.globalCircuitBreakerThreshold - 1)).Locked := by
  obtain ⟨n, hn⟩ : ∃ n, config.globalCircuitBreakerThreshold = n + 2 :=
    ⟨config.globalCircuitBreakerThreshold - 2, by omega⟩
  have hpred : config.globalCircuitBreakerThreshold - 1 = n + 1 := by omega
  rw [hpred]
  refine locked_of_breaker henabled (probed_getLast n) ?_ ?_ ?_
  · refine breaker_trips (probed_outcome _) htwo ?_
    simp [probed, hn]
  · rw [probed_repeats]
    exact .inl hwarning
  · intro pattern hne
    have hattempts : (probed config (n + 1)).alternateAttempts (probeEntry n).pattern pattern ≤
        min 3 (n + 2) := probed_alternate n hne
    change _ < config.warningThreshold ∨ config.criticalThreshold ≤ _
    omega

/-- The same call again, twice. -/
def again (n : ℕ) : List DetectorAction :=
  [.call (probe n) (.error ""), .call (probe n) (.error "")]

/-- After `n + 1` new calls and the last one again. -/
def probedAgain (config : LoopDetectionConfig) (n : ℕ) : ToolLoopDetector where
  config := config
  history := (List.range n).map probeEntry ++ [probeEntry n, probeEntry n]

theorem probedAgain_repeats (n : ℕ) :
    (probedAgain config n).repeats (probeEntry n).pattern = 3 := by
  have hreverse : (probedAgain config n).history.reverse =
      probeEntry n :: (probed config (n + 1)).history.reverse := by
    rw [probed_succ_history]
    simp [probedAgain]
  have hrepeats : (probed config (n + 1)).repeats (probeEntry n).pattern = 2 := probed_repeats n
  rw [repeats, streak] at hrepeats ⊢
  rw [hreverse, takeWhile_cons_of_pos (by simp), length_cons, hrepeats]

/-- The last call may be made a second time. -/
theorem step_probe_again (hwarning : 2 < config.warningThreshold)
    (hcritical : 3 < config.criticalThreshold)
    (hthreshold : n + 3 ≤ config.globalCircuitBreakerThreshold)
    (hsize : n + 2 ≤ max config.historySize 1) (henabled : config.enabled = true) :
    (probed config (n + 1)).step (.call (probe n) (.error "")) = probedAgain config n := by
  have hinspect : (probed config (n + 1)).inspect (probe n) = (none, probed config (n + 1)) := by
    rcases inspect_last henabled (probed_getLast n) rfl with ⟨hle, -⟩ | ⟨-, hle, -⟩ | ⟨-, -, h⟩
    · rw [probed_repeats] at hle
      exact absurd hle (by change ¬ config.criticalThreshold ≤ 2; omega)
    · rw [probed_repeats] at hle
      exact absurd hle (not_le.mpr hwarning)
    · rw [h, probed_breaker (by omega)]
  rw [step, judgesCritical, hinspect]
  refine (recordEntry_probed (by omega) (probeEntry n)).trans ?_
  simp [probed, probedAgain, range_succ]

/-- Recording the call a third time drops the oldest entry at most. -/
theorem warned_history (hconfig : detector.config = config)
    (hhistory : detector.history = (probedAgain config n).history)
    (hsize : n + 2 ≤ max config.historySize 1) :
    ∃ front, (detector.recordEntry (probeEntry n)).history =
        front ++ [probeEntry n, probeEntry n] ∧ n ≤ front.length ∧
      ∀ entry ∈ front, entry.outcome = "error:" := by
  have hsplit : detector.history ++ [probeEntry n] =
      (probed config (n + 1)).history ++ [probeEntry n, probeEntry n] := by
    rw [hhistory, probed_succ_history]
    simp [probedAgain]
  have hlength : (probed config (n + 1)).history.length = n + 1 := by simp [probed]
  have hlength' : detector.history.length = n + 2 := by simp [hhistory, probedAgain]
  have hdrop : detector.history.length + 1 - max detector.config.historySize 1 ≤ 1 := by
    rw [hconfig]
    omega
  refine ⟨(probed config (n + 1)).history.drop
    (detector.history.length + 1 - max detector.config.historySize 1), ?_, ?_, ?_⟩
  · rw [recordEntry_history, hsplit, drop_append_of_le_length (by omega)]
  · rw [length_drop]
    omega
  · exact fun entry hentry => probed_outcome _ entry (mem_of_mem_drop hentry)

/-- The third time it earns its warning, and then the detector is locked. -/
theorem locked_step_probedAgain (henabled : config.enabled = true)
    (hwarning : config.warningThreshold = 3) (hcritical : 3 < config.criticalThreshold)
    (hthreshold : config.globalCircuitBreakerThreshold = n + 3)
    (hsize : n + 2 ≤ max config.historySize 1) :
    ((probedAgain config n).step (.call (probe n) (.error ""))).Locked := by
  set warned : ToolLoopDetector :=
    { probedAgain config n with lastWarningPattern := some (probeEntry n).pattern }
  have hinspect : ∃ signal : LoopSignal, signal.severity = .warning ∧
      (probedAgain config n).inspect (probe n) = (some signal, warned) := by
    have hlast : (probedAgain config n).history.getLast? = some (probeEntry n) := by
      simp [probedAgain]
    rcases inspect_last henabled hlast rfl with
      ⟨hle, -⟩ | ⟨-, -, -, h⟩ | ⟨-, h, -⟩
    · rw [probedAgain_repeats] at hle
      exact absurd hle (not_le.mpr hcritical)
    · exact h
    · rw [probedAgain_repeats] at h
      rcases h with hlt | hwarned
      · exact absurd hlt (by change ¬ 3 < config.warningThreshold; omega)
      · cases hwarned
  obtain ⟨signal, hsignal, hinspect⟩ := hinspect
  have hpass : (probedAgain config n).judgesCritical (probe n) = false := by
    simp [judgesCritical, hinspect, hsignal]
  rw [step, hpass, hinspect]
  change (warned.recordEntry (probeEntry n)).Locked
  set final := warned.recordEntry (probeEntry n)
  obtain ⟨front, hhistory, hfront, houtcome⟩ : ∃ front,
      final.history = front ++ [probeEntry n, probeEntry n] ∧ n ≤ front.length ∧
        ∀ entry ∈ front, entry.outcome = "error:" :=
    warned_history rfl rfl hsize
  have hconfig : final.config = config := rfl
  have hgetLast : final.history.getLast? = some (probeEntry n) := by simp [hhistory]
  have houtcomes : ∀ entry ∈ final.history, entry.outcome = "error:" := by
    rw [hhistory, forall_mem_append]
    exact ⟨houtcome, by simp [probeEntry]⟩
  refine locked_of_breaker henabled hgetLast (breaker_trips houtcomes ?_ ?_) ?_ ?_
  · rw [hconfig]
    omega
  · rw [hconfig, hhistory, length_append]
    change _ ≤ front.length + 2 + 1
    omega
  · refine .inr ?_
    change Option.filter _ (some (probeEntry n).pattern) = _
    simp
  · intro pattern hne
    have htwo : final.alternateAttempts (probeEntry n).pattern pattern = 2 := by
      have hsplit : final.history = (front ++ [probeEntry n]) ++ [probeEntry n] := by
        simp [hhistory]
      refine alternateAttempts_eq_two hsplit hne fun entry hentry => ?_
      obtain rfl : probeEntry n = entry := by simpa using hentry
      exact hne
    rw [hconfig]
    omega

/-- **Every other configuration locks** after some calls. -/
theorem exists_locked (h : ¬ config.NeverLocks) :
    ∃ actions, (System.run step { config } actions).Locked := by
  simp only [LoopDetectionConfig.NeverLocks, not_or, not_and, not_lt, not_le] at h
  obtain ⟨henabled, hlow, hbreaker⟩ := h
  rw [Bool.not_eq_false] at henabled
  by_cases hwarning : config.warningThreshold ≤ 2
  · refine ⟨[.call (probe 0) (.error "")], ?_⟩
    have hpass : ({ config } : ToolLoopDetector).judgesCritical (probe 0) = false :=
      not_critical_of_fresh (by simp) fun _ hne => absurd rfl hne
    obtain ⟨hconfig, hhistory⟩ := ({ config } : ToolLoopDetector).inspect_config (probe 0)
    rw [System.run_cons, step, hpass]
    set inspected := (({ config } : ToolLoopDetector).inspect (probe 0)).2
    have hrecorded : (inspected.recordEntry (probeEntry 0)).config = config := hconfig
    change (inspected.recordEntry (probeEntry 0)).Locked
    refine locked_of_low_thresholds ?_ ?_ ?_ ?_
    · rw [hrecorded, henabled]
    · rw [recordEntry_of_room]
      · simp
      · rw [hhistory]
        exact lt_of_lt_of_le zero_lt_one (le_max_right _ _)
    · rw [hrecorded]
      exact hwarning
    · rw [hrecorded]
      exact hlow hwarning
  · have hhigh : 2 < config.warningThreshold := not_le.mp hwarning
    obtain ⟨htwo, hsize⟩ := hbreaker hhigh
    by_cases hprobes : 3 < config.warningThreshold ∨ config.criticalThreshold ≤ 3 ∨
        config.globalCircuitBreakerThreshold = 2
    · refine ⟨probes (config.globalCircuitBreakerThreshold - 1), ?_⟩
      rw [run_probes hhigh (by omega) (by omega)]
      exact locked_probed henabled hhigh htwo hprobes
    · obtain ⟨n, hn⟩ : ∃ n, config.globalCircuitBreakerThreshold = n + 3 :=
        ⟨config.globalCircuitBreakerThreshold - 3, by omega⟩
      refine ⟨probes (n + 1) ++ again n, ?_⟩
      rw [System.run_append, run_probes hhigh (by omega) (by omega), again, System.run_cons,
        step_probe_again hhigh (by omega) (by omega) (by omega) henabled]
      exact locked_step_probedAgain henabled (by omega) (by omega) hn (by omega)

end ToolLoopDetector

/-! ### Lockout -/

/-- **No permanent lockout**, for exactly the configurations that never lock. -/
theorem always_some_call_passes_iff (config : LoopDetectionConfig) : (∀ actions, ∃ call,
      (System.run ToolLoopDetector.step { config } actions).judgesCritical call = false) ↔
      config.NeverLocks := by
  constructor
  · intro h
    by_contra hlocks
    obtain ⟨actions, hlocked⟩ := ToolLoopDetector.exists_locked hlocks
    obtain ⟨call, hpass⟩ := h actions
    exact Bool.false_ne_true (hpass.symm.trans (hlocked call))
  · intro hconfig actions
    have hbounded :
        ToolLoopDetector.Bounded config (System.run ToolLoopDetector.step { config } actions) :=
      System.run_invariant (fun _ action h => h.step action) ⟨rfl, Nat.zero_le _⟩ actions
    exact hbounded.exists_passes hconfig

/-- **The default thresholds lock** after nine different calls that fail with the same text. -/
theorem nine_equal_failures_lock :
    (System.run ToolLoopDetector.step { config := { enabled := true } }
      (ToolLoopDetector.probes 9)).Locked := by
  exact ToolLoopDetector.locked_probed rfl (by decide) (by decide) (.inl (by decide))

end Nanoclaw
