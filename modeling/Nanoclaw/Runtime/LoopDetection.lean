import Nanoclaw.Types.Event

/-!
# The Tool Loop Detector

The detector keeps a bounded history of executed calls, oldest first, each with the fingerprint
of the call and its outcome, and looks for three shapes: the same call again and again, two calls
in alternation, and a run of equal outcomes. `ToolLoopDetector.inspect` reports the first it
finds. Arguments enter the fingerprint as their compact JSON text.
-/

namespace Nanoclaw

/-- The thresholds and their defaults. -/
structure LoopDetectionConfig where
  enabled : Bool := false
  historySize : ℕ := 24
  warningThreshold : ℕ := 4
  criticalThreshold : ℕ := 6
  globalCircuitBreakerThreshold : ℕ := 10

/-- Only a critical signal refuses the call. -/
inductive LoopSignalSeverity where
  | warning
  | critical
  deriving DecidableEq

/-- What the detector says of a call. -/
structure LoopSignal where
  severity : LoopSignalSeverity
  reason : String

/-- A call that was made, and what it came to. -/
structure ToolLoopEntry where
  pattern : String
  outcome : String

/-- The last calls, and the call that was warned of. -/
structure ToolLoopDetector where
  config : LoopDetectionConfig
  history : List ToolLoopEntry := []
  lastWarningPattern : Option String := none

/-- Calls of one tool with equal arguments are equal. -/
def fingerprintCall (call : ToolCall) : String :=
  call.toolName.value ++ "\n" ++ call.arguments.render

/-- The tool of a fingerprint. -/
def toolNameFromPattern (pattern : String) : String :=
  String.ofList (pattern.toList.takeWhile (· ≠ '\n'))

namespace ToolLoopDetector

variable (detector : ToolLoopDetector)

/-- The entries that match the next call, latest first. -/
def streak (pattern : String) : List ToolLoopEntry :=
  detector.history.reverse.takeWhile fun entry => entry.pattern == pattern

/-- All neighbours have equal outcomes. -/
def unchanged : List ToolLoopEntry → Bool
  | first :: second :: rest => first.outcome == second.outcome && unchanged (second :: rest)
  | _ => true

/-- The call again, whatever it comes to; warned of once. -/
def samePatternNoProgressSignal (pattern : String) : Option LoopSignal × ToolLoopDetector :=
  let streak := detector.streak pattern
  if streak.isEmpty then (none, detector)
  else
    let attempts := streak.length + 1
    let how := if unchanged streak then "with unchanged outcomes" else "with the same arguments"
    let reason := "repeating `" ++ toolNameFromPattern pattern ++ "` " ++ how ++ " for " ++
      toString attempts ++ " consecutive attempts"
    if detector.config.criticalThreshold ≤ attempts then
      (some ⟨.critical, reason⟩, { detector with lastWarningPattern := some pattern })
    else if detector.config.warningThreshold ≤ attempts ∧
        detector.lastWarningPattern ≠ some pattern then
      (some ⟨.warning, reason⟩, { detector with lastWarningPattern := some pattern })
    else (none, detector)

/-- The length of the alternation at the end of the history, read latest first. -/
def alternateLen (last next : String) : String → List ToolLoopEntry → ℕ
  | _, [] => 0
  | expected, entry :: entries =>
    if entry.pattern ≠ expected then 0
    else alternateLen last next (if expected = next then last else next) entries + 1

/-- The last two calls in turns. -/
def pingPongSignal (nextPattern : String) : Option LoopSignal :=
  match detector.history.getLast? with
  | none => none
  | some last =>
    if last.pattern = nextPattern then none
    else
      let attempts :=
        alternateLen last.pattern nextPattern last.pattern detector.history.reverse + 1
      if attempts < detector.config.warningThreshold then none
      else
        let reason := "alternating between repeated tool call patterns involving `" ++
          toolNameFromPattern nextPattern ++ "` for " ++ toString attempts ++ " attempts"
        some ⟨if detector.config.criticalThreshold ≤ attempts then .critical else .warning, reason⟩

/-- The last calls had equal outcomes. -/
def globalCircuitBreakerSignal : Option LoopSignal :=
  let threshold := max detector.config.globalCircuitBreakerThreshold 1
  if detector.history.length + 1 < threshold then none
  else match detector.history.reverse.take (threshold - 1) with
    | [] => none
    | first :: rest =>
      if rest.all fun entry => entry.outcome == first.outcome then
        some ⟨.critical, "recent tool activity produced the same outcome " ++
          toString threshold ++ " times in a row"⟩
      else none

/-- Look at the next call. Only the repetition check remembers its warning. -/
def inspect (call : ToolCall) : Option LoopSignal × ToolLoopDetector :=
  if !detector.config.enabled then (none, detector)
  else
    let pattern := fingerprintCall call
    match detector.samePatternNoProgressSignal pattern with
    | (some signal, detector) => (some signal, detector)
    | (none, detector) =>
      ((detector.pingPongSignal pattern).or detector.globalCircuitBreakerSignal, detector)

/-- Remember a call; another call may be warned of again. -/
def recordEntry (entry : ToolLoopEntry) : ToolLoopDetector :=
  let lastWarningPattern := detector.lastWarningPattern.filter (· == entry.pattern)
  let history := detector.history ++ [entry]
  { detector with
    history := history.drop (history.length - max detector.config.historySize 1)
    lastWarningPattern }

/-- Remember a call that returned. -/
def recordResult (call : ToolCall) (result : ToolResult) : ToolLoopDetector :=
  let outcome := (if result.isError then "error:" else "ok:") ++ result.textContent
  detector.recordEntry { pattern := fingerprintCall call, outcome }

/-- Remember a call that failed. -/
def recordError (call : ToolCall) (error : String) : ToolLoopDetector :=
  detector.recordEntry { pattern := fingerprintCall call, outcome := "error:" ++ error }

/-- Forget the calls. -/
def reset : ToolLoopDetector :=
  { detector with history := [], lastWarningPattern := none }

end ToolLoopDetector

end Nanoclaw
