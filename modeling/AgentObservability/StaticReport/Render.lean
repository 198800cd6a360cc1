import AgentObservability.Foundation.Occurrence
import AgentObservability.StaticReport.ReportDto

/-!
# Rendering a report

`write_rendered` copies the shell to a writer and puts the title, the time and the data
of a report in the places of its placeholders; `validate_semantic_artifact` reads a
report out of an artifact, renders it again and compares.

A writer is a value that each write changes (`Output`). `serde_json` is given by the
pieces in which it writes a report and by what it reads (`SerdeJson`).
-/

namespace AgentObservability.StaticReport

open Foundation

/-- `str::as_bytes`. -/
def asBytes (s : String) : List UInt8 := utf8 [s]

/-- `MAX_REPORT_ARTIFACT_BYTES`. -/
def maxReportArtifactBytes : ℕ := 32 * 1024 * 1024

/-- The placeholders of the shell. -/
inductive Placeholder where
  /-- `TITLE_TOKEN`. -/
  | title
  /-- `GENERATED_AT_TOKEN`. -/
  | generatedAt
  /-- `DATA_TOKEN`. -/
  | data
  deriving DecidableEq

/-- The token of a placeholder. -/
def Placeholder.token : Placeholder → List UInt8
  | .title => asBytes "__AGENT_OBSERVABILITY_REPORT_TITLE__"
  | .generatedAt => asBytes "__AGENT_OBSERVABILITY_REPORT_GENERATED_AT__"
  | .data => asBytes "__AGENT_OBSERVABILITY_REPORT_DATA__"

theorem Placeholder.token_length_pos (p : Placeholder) : 0 < p.token.length := by
  cases p <;> decide

/-- `PENDING`. -/
def pending : String :=
  "<!doctype html><html lang=\"ko\"><meta charset=\"utf-8\"><meta name=\"viewport\" content=\"width=device-width,initial-scale=1\"><title>Agent Observability — 갱신 대기</title><main><h1>리포트 갱신 대기</h1><p>데이터 보관 정책을 적용하는 동안 이전 리포트를 숨겼습니다.</p><p>수집기가 실행 중이면 잠시 후 새로고침하세요. 수동 실행 환경에서는 agentobs report 명령으로 다시 만드세요.</p></main></html>"

/-- `ReportArtifactError`, of what renders and validates. -/
inductive ReportArtifactError where
  /-- `Contract`. -/
  | contract (error : ContractError)
  /-- `Json`. -/
  | json
  /-- `Io`. -/
  | io
  /-- `InvalidArtifact`. -/
  | invalidArtifact
  /-- `InvalidTemplate`. -/
  | invalidTemplate
  /-- `TooLarge`. -/
  | tooLarge
  deriving DecidableEq

/-! ### Escapes -/

/-- `str::replace` of a character. -/
def replace (c : Char) (replacement : String) (s : String) : String :=
  String.ofList (s.toList.flatMap fun d => if d = c then replacement.toList else [d])

/-- `escape_html`. -/
def escapeHtml (input : String) : String :=
  replace (Char.ofNat 39) "&#39;" (replace '"' "&quot;" (replace '>' "&gt;" (replace '<' "&lt;" (replace '&' "&amp;" input))))

/-- What `JsonScriptWriter` writes for a byte it escapes. -/
def scriptEscape (byte : UInt8) : Option (List UInt8) :=
  if byte = 38 then some (asBytes "\\u0026")
  else if byte = 60 then some (asBytes "\\u003c")
  else if byte = 62 then some (asBytes "\\u003e")
  else none

/-! ### Writers -/

/-- `io::Write`. -/
structure Output (W : Type) where
  /-- `write_all`: the writer after it, and whether it took all bytes. -/
  writeAll : W → List UInt8 → W × Bool

/-- A writer and the count of the bytes. -/
structure Counted (W : Type) where
  /-- `output`. -/
  output : W
  /-- `bytes`. -/
  bytes : ℕ

/-- A vector of bytes. -/
def vector : Output (List UInt8) := ⟨fun written value => (written ++ value, true)⟩

section Writing

variable {W : Type} (out : Output W)

/-- `write_counted`, with the writer when it fails. -/
def writeCounted (value : List UInt8) (s : Counted W) : Except W (Counted W) :=
  match out.writeAll s.output value with
  | (output, true) => .ok ⟨output, min (s.bytes + value.length) (2 ^ 64 - 1)⟩
  | (output, false) => .error output

/-- The loop of `JsonScriptWriter::write`, with `start` and `index`. -/
def jsonScriptLoop (value : List UInt8) : ℕ → ℕ → List UInt8 → Counted W → Except W (ℕ × Counted W)
  | start, _, [], s => .ok (start, s)
  | start, index, byte :: rest, s =>
    match scriptEscape byte with
    | none => jsonScriptLoop value start (index + 1) rest s
    | some escaped => do
      let s ← if start < index then writeCounted out ((value.drop start).take (index - start)) s else pure s
      let s ← writeCounted out escaped s
      jsonScriptLoop value (index + 1) (index + 1) rest s

/-- `JsonScriptWriter::write`. -/
def jsonScriptWrite (value : List UInt8) (s : Counted W) : Except W (Counted W) := do
  let (start, s) ← jsonScriptLoop out value 0 0 value s
  if start < value.length then writeCounted out (value.drop start) s else pure s

end Writing

/-! ### Rendering -/

/-- `serde_json`, of reports. -/
structure SerdeJson (F : Type) [Float64 F] where
  /-- The pieces that `to_writer` writes. -/
  toWriter : ReportDtoV2 F → List (List UInt8)
  /-- Together they are the document. -/
  toWriter_flatten : ∀ report, (toWriter report).flatten = utf8 report.toValue.json
  /-- `from_slice`. -/
  fromSlice : List UInt8 → Option (ReportDtoV2 F)

/-- `Iterator::min_by_key` of the offset. -/
def minByOffset : List (ℕ × Placeholder) → Option (ℕ × Placeholder)
  | [] => none
  | found :: rest =>
    match minByOffset rest with
    | none => some found
    | some other => if found.1 ≤ other.1 then some found else some other

/-- The next placeholder, with its offset. -/
def nextPlaceholder (remaining : List UInt8) : Option (ℕ × Placeholder) :=
  minByOffset ([Placeholder.title, .generatedAt, .data].filterMap fun p =>
    (position p.token remaining).map fun offset => (offset, p))

/-- `str::matches` of a token, counted; the first argument is how much of a match is left. -/
def countMatches (token : List UInt8) : ℕ → List UInt8 → ℕ
  | _, [] => 0
  | matched + 1, _ :: rest => countMatches token matched rest
  | 0, byte :: rest =>
    if token <+: byte :: rest then countMatches token (token.length - 1) rest + 1 else countMatches token 0 rest

section Render

variable {F : Type} [Float64 F] {W : Type} (out : Output W) (serde : SerdeJson F)

/-- What is written in the place of a placeholder. -/
def writePlaceholder (report : ReportDtoV2 F) (title generatedAt : String) (placeholder : Placeholder) (s : Counted W) :
    Except (W × ReportArtifactError) (Counted W) :=
  match placeholder with
  | .title => (writeCounted out (asBytes title) s).mapError (·, .io)
  | .generatedAt => (writeCounted out (asBytes generatedAt) s).mapError (·, .io)
  | .data => ((serde.toWriter report).foldlM (fun s piece => jsonScriptWrite out piece s) s).mapError (·, .json)

/-- The loop of `write_rendered`. -/
def renderLoop (report : ReportDtoV2 F) (title generatedAt : String) (remaining : List UInt8) (s : Counted W) :
    Except (W × ReportArtifactError) (Counted W) :=
  if _h : remaining = [] then .ok s
  else
    match nextPlaceholder remaining with
    | none => (writeCounted out remaining s).mapError (·, .io)
    | some (offset, placeholder) => do
      let s ← (writeCounted out (remaining.take offset) s).mapError (·, .io)
      let s ← writePlaceholder out serde report title generatedAt placeholder s
      renderLoop report title generatedAt (remaining.drop (offset + placeholder.token.length)) s
termination_by remaining.length
decreasing_by
  have hpos := placeholder.token_length_pos
  have hremaining := List.length_pos_iff.mpr _h
  rw [List.length_drop]
  omega

/-- `write_rendered`: the writer after it, and the count of the bytes. -/
def writeRendered (shell : List UInt8) (output : W) (report : ReportDtoV2 F) : W × Except ReportArtifactError ℕ :=
  match report.validate with
  | .error e => (output, .error (.contract e))
  | .ok () =>
    if countMatches Placeholder.title.token 0 shell ≠ 2 ∨ countMatches Placeholder.generatedAt.token 0 shell ≠ 1 ∨
        countMatches Placeholder.data.token 0 shell ≠ 1 then (output, .error .invalidTemplate)
    else
      match renderLoop out serde report (escapeHtml report.title) (escapeHtml report.generatedAt) shell ⟨output, 0⟩ with
      | .ok s => (s.output, .ok s.bytes)
      | .error (output, e) => (output, .error e)

end Render

/-! ### Validation -/

/-- `REPORT_DATA_OPEN`. -/
def reportDataOpen : List UInt8 := asBytes "<script id=\"report-data\" type=\"application/json\">"

/-- `REPORT_DATA_CLOSE`. -/
def reportDataClose : List UInt8 := asBytes "</script>"

/-- `ExactArtifactWriter`. -/
structure ExactArtifactWriter where
  /-- `artifact`. -/
  artifact : List UInt8
  /-- `offset`. -/
  offset : ℕ
  /-- `mismatched`. -/
  mismatched : Bool

/-- `ExactArtifactWriter::write`. -/
def ExactArtifactWriter.write (w : ExactArtifactWriter) (value : List UInt8) : ExactArtifactWriter × Bool :=
  if w.offset ≤ w.artifact.length ∧ value <+: w.artifact.drop w.offset then
    ({ w with offset := w.offset + value.length }, true)
  else ({ w with mismatched := true }, false)

/-- `ExactArtifactWriter` writes what is not empty. -/
def comparing : Output ExactArtifactWriter := ⟨fun w value => if value = [] then (w, true) else w.write value⟩

/-- `validate_semantic_artifact`. -/
def validateSemanticArtifact {F : Type} [Float64 F] (serde : SerdeJson F) (shell artifact : List UInt8) :
    Except ReportArtifactError Unit :=
  if maxReportArtifactBytes < artifact.length then .error .tooLarge
  else if artifact = asBytes pending then .ok ()
  else do
    let offset ← ofOption ReportArtifactError.invalidArtifact (position reportDataOpen artifact)
    let dataStart := offset + reportDataOpen.length
    let length ← ofOption ReportArtifactError.invalidArtifact (position reportDataClose (artifact.drop dataStart))
    let report ← ofOption ReportArtifactError.invalidArtifact (serde.fromSlice ((artifact.drop dataStart).take length))
    let (comparator, result) := writeRendered comparing serde shell ⟨artifact, 0, false⟩ report
    require (comparator.mismatched = false) ReportArtifactError.invalidArtifact
    let _ ← result
    require (comparator.offset = artifact.length) ReportArtifactError.invalidArtifact

end AgentObservability.StaticReport
