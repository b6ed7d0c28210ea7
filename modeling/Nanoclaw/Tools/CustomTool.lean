import Mathlib.Data.String.Basic
import Nanoclaw.Provider.Payload

/-!
# Custom Tools

What `execute_custom_tool` makes of a command that has finished: the outputs are captured up to a
limit, and the result is what the command has printed as JSON, or a text with both outputs.
Decoding bytes and reading JSON are parameters. The limit is a number of bytes of the decoded
text, and cutting a text inside a character panics.
-/

namespace Nanoclaw.Tools

/-- What a command prints if it makes its own result. -/
structure CustomToolCommandOutput where
  text : Option String
  parts : List MessagePart
  structuredContent : Option Value
  metadata : Option Value
  isError : Bool

structure CustomToolRuntime where
  toolName : String
  manifestPath : String
  program : String
  pluginId : Option String

/-- A process that has finished; there is no code if a signal has ended it. -/
structure ProcessOutput where
  stdout : ByteArray
  stderr : ByteArray
  code : Option ℤ

/-- What the libraries make of bytes, of a text and of a value. -/
structure Decoders where
  fromUtf8Lossy : ByteArray → String
  fromStr : String → Option Value
  fromValue : Value → Option CustomToolCommandOutput

variable (decoders : Decoders)

def maxCaptureBytes : ℕ :=
  256 * 1024

/-- There is a character boundary after so many bytes. -/
abbrev HasBoundary (text : String) (bytes : ℕ) : Prop :=
  String.Pos.Raw.IsValid text ⟨bytes⟩

/-- The text that is captured; it panics if the limit is inside a character. -/
def truncateBytes (bytes : ByteArray) : Option String :=
  let text := decoders.fromUtf8Lossy bytes
  if text.utf8ByteSize ≤ maxCaptureBytes then some text
  else if h : HasBoundary text maxCaptureBytes then some (text.sliceTo ⟨_, h⟩).copy
  else none

def decodeCommandOutput (stdout : String) : Option CustomToolCommandOutput := do
  let value ← decoders.fromStr (Text.trim stdout)
  let object ← value.asObject
  if object.any fun field => field.1 ∈ ["text", "parts", "structured_content", "metadata",
      "continuation", "attachments", "is_error"] then
    decoders.fromValue value
  else none

def renderCommandOutput (toolName stdout stderr : String) : String :=
  let stdout := Text.trim stdout
  let stderr := Text.trim stderr
  match stdout.isEmpty, stderr.isEmpty with
  | false, true => stdout
  | true, false => "[custom tool " ++ toolName ++ " stderr]\n" ++ stderr
  | false, false => stdout ++ "\n\n[stderr]\n" ++ stderr
  | true, true => ""

def mergeMetadata (existing : Option Value) (extra : List (String × Value)) :
    List (String × Value) :=
  let merged := match existing with
    | some (.object object) => object
    | some other => [("tool_output", other)]
    | none => []
  merged ++ extra.filter fun field => field.1 ∉ merged.map Prod.fst

/-- The result, given the texts that were captured. -/
def customToolResult (runtime : CustomToolRuntime) (callId : ToolCallId)
    (code : Option ℤ) (stdout stderr : String) : ToolResult :=
  let metadata := [("manifest_path", Value.string runtime.manifestPath),
      ("program", .string runtime.program)] ++
    (runtime.pluginId.map fun id => ("plugin_id", Value.string id)).toList ++
    [("exit_code", .number (toString (code.getD (-1))))] ++
    if (Text.trim stderr).isEmpty then [] else [("stderr", .string stderr)]
  let result : ToolResult := {
    id := callId, callId := ⟨callId.value⟩, toolName := ⟨runtime.toolName⟩
    parts := [.text (renderCommandOutput runtime.toolName stdout stderr)]
    structuredContent := none, metadata := some (.object metadata), isError := code != some 0 }
  match decodeCommandOutput decoders stdout with
  | none => result
  | some parsed =>
    let resultMetadata := mergeMetadata parsed.metadata metadata
    { result with
      parts := if parsed.parts.isEmpty then [.text (parsed.text.getD "")] else parsed.parts
      structuredContent := parsed.structuredContent
      metadata := if resultMetadata.isEmpty then none else some (.object resultMetadata)
      isError := parsed.isError || result.isError }

/-- **`execute_custom_tool`**, from the end of the process on; `none` is a panic. -/
def executeCustomTool (runtime : CustomToolRuntime) (callId : ToolCallId)
    (output : ProcessOutput) : Option ToolResult := do
  let stdout ← truncateBytes decoders output.stdout
  let stderr ← truncateBytes decoders output.stderr
  some (customToolResult decoders runtime callId output.code stdout stderr)

/-- The text is the beginning of another, up to a character boundary within the limit. -/
def CutWithin (whole text : String) : Prop :=
  text.utf8ByteSize ≤ maxCaptureBytes ∧ ∃ rest, whole = text ++ rest

/-- The text is short enough, or has a character boundary at the limit. -/
def Cuttable (text : String) : Prop :=
  text.utf8ByteSize ≤ maxCaptureBytes ∨ HasBoundary text maxCaptureBytes

variable (bytes : ByteArray)

/-- A text is captured if and only if it can be cut. -/
theorem truncateBytes_cases :
    (Cuttable (decoders.fromUtf8Lossy bytes) ∧ ∃ text, truncateBytes decoders bytes = some text ∧
      CutWithin (decoders.fromUtf8Lossy bytes) text) ∨
    ¬ Cuttable (decoders.fromUtf8Lossy bytes) ∧ truncateBytes decoders bytes = none := by
  rw [truncateBytes, Cuttable]
  split
  next hshort => exact .inl ⟨.inl hshort, _, rfl, hshort, "", String.append_empty.symm⟩
  next hlong =>
    split
    next hboundary =>
      have hsplits := String.Pos.splits ⟨_, hboundary⟩
      have hsize := congrArg String.Pos.Raw.byteIdx hsplits.offset_eq_rawEndPos
      exact .inl ⟨.inr hboundary, _, rfl, hsize.ge, _, hsplits.eq_append⟩
    next hinside => exact .inr ⟨not_or.mpr ⟨hlong, hinside⟩, rfl⟩

/-- **The outputs with which the call returns**: the result is made from beginnings of the decoded
outputs, at character boundaries and within the limit, if and only if the limit is inside no
character of a longer output. -/
theorem custom_tool_output_captured_iff (runtime : CustomToolRuntime) (callId : ToolCallId)
    (output : ProcessOutput) :
    (∃ stdout stderr, executeCustomTool decoders runtime callId output =
        some (customToolResult decoders runtime callId output.code stdout stderr) ∧
      CutWithin (decoders.fromUtf8Lossy output.stdout) stdout ∧
      CutWithin (decoders.fromUtf8Lossy output.stderr) stderr) ↔
    Cuttable (decoders.fromUtf8Lossy output.stdout) ∧
      Cuttable (decoders.fromUtf8Lossy output.stderr) := by
  rcases truncateBytes_cases decoders output.stdout with
    ⟨hout, stdout, hstdout, hcut⟩ | ⟨hout, hstdout⟩
  · rcases truncateBytes_cases decoders output.stderr with
      ⟨herr, stderr, hstderr, hcut'⟩ | ⟨herr, hstderr⟩
    · refine iff_of_true ⟨stdout, stderr, ?_, hcut, hcut'⟩ ⟨hout, herr⟩
      simp [executeCustomTool, hstdout, hstderr]
    · exact iff_of_false (by simp [executeCustomTool, hstderr]) fun h => herr h.2
  · exact iff_of_false (by simp [executeCustomTool, hstdout]) fun h => hout h.1

/-- Characters of three bytes have no boundary at the limit. -/
theorem not_cuttable_euros {n : ℕ} (hlong : maxCaptureBytes < n * 3) :
    ¬ Cuttable (.ofList (List.replicate n '€')) := by
  have hsize : ∀ k, String.utf8Len (List.replicate k '€') = k * 3 := by
    intro k
    induction k with
    | zero => rfl
    | succ k ih =>
      rw [List.replicate_succ, String.utf8Len_cons, ih, Nat.succ_mul]
      rfl
  rintro (hshort | hboundary)
  · rw [String.utf8ByteSize_ofList, hsize] at hshort
    omega
  · obtain ⟨front, rest, heq, hlimit⟩ := String.Pos.Raw.isValid_iff_exists_append.mp hboundary
    have hfront : front.toList <+: List.replicate n '€' :=
      ⟨rest.toList, by rw [← String.toList_append, ← heq, String.toList_ofList]⟩
    have hlen := congrArg String.Pos.Raw.byteIdx hlimit
    have hall := (List.prefix_replicate_iff.mp hfront).2
    rw [← String.ofList_toList (s := front), hall] at hlen
    change maxCaptureBytes = (String.ofList _).utf8ByteSize at hlen
    rw [String.utf8ByteSize_ofList, hsize, maxCaptureBytes] at hlen
    omega

/-- A command that prints 87382 euro signs makes the call panic. -/
theorem euro_output_panics :
    executeCustomTool ⟨fun bytes => (String.fromUTF8? bytes).getD "�", fun _ => none,
        fun _ => none⟩ ⟨"price", "tool.toml", "price", none⟩ ⟨"call"⟩
      ⟨(String.ofList (List.replicate 87382 '€')).toByteArray, .empty, some 0⟩ = none := by
  have hdecoded : ∀ s : String, (String.fromUTF8? s.toByteArray).getD "�" = s := by
    intro s
    rw [String.fromUTF8?, dif_pos s.isValidUTF8]
    rfl
  rw [executeCustomTool, ((truncateBytes_cases _ _).resolve_left fun h => ?_).2]
  · rfl
  · have hcut := h.1
    dsimp only at hcut
    rw [hdecoded] at hcut
    exact not_cuttable_euros (by decide) hcut

end Nanoclaw.Tools
