import AgentObservability.StaticReport.Artifact

/-!
# Artifacts are read back

The shell is given by the texts around its placeholders (`ReportShell`). The artifact of a
report is the shell with its placeholders filled. A report that `serde_json` reads back
is rendered to its artifact and found in it again, and the artifact is accepted; what is
accepted is the pending page or the artifact of a valid report (`artifactsRoundTrip`).
-/

namespace AgentObservability.StaticReport

open Foundation Foundation.Json

/-- The texts of the shell around its placeholders, without the tags of the data. -/
structure ShellTexts where
  /-- Before the title. -/
  beforeTitle : List UInt8
  /-- Before the title in the heading. -/
  beforeHeading : List UInt8
  /-- Before the time. -/
  beforeTime : List UInt8
  /-- Before the tag of the data. -/
  beforeData : List UInt8
  /-- After the closing tag. -/
  afterData : List UInt8

/-- The texts with something in the places between them. -/
def ShellTexts.fill (texts : ShellTexts) (place : Placeholder → List UInt8) : List UInt8 :=
  texts.beforeTitle ++ (place .title ++ (texts.beforeHeading ++ (place .title ++ (texts.beforeTime ++ (place .generatedAt ++
    (texts.beforeData ++ reportDataOpen ++ (place .data ++ (reportDataClose ++ texts.afterData))))))))

/-- `SHELL`, as it is generated. -/
structure ReportShell extends ShellTexts where
  /-- The tags before the title, the heading and the time are closed. -/
  closed : ∀ segment ∈ [beforeTitle, beforeHeading, beforeTime], segment.getLast? = some 62
  /-- There are no other placeholders. -/
  noToken : ∀ p : Placeholder, ∀ segment ∈
    [beforeTitle, beforeHeading, beforeTime, beforeData ++ reportDataOpen, reportDataClose ++ afterData], ¬ p.token <:+: segment
  /-- There is no other data. -/
  noData : ∀ segment ∈ [beforeTitle, beforeHeading, beforeTime, beforeData], ¬ reportDataOpen <:+: segment
  /-- The placeholders are counted as `write_rendered` expects. -/
  counted : ∀ p : Placeholder, countMatches p.token 0 (toShellTexts.fill Placeholder.token) = if p = .title then 2 else 1

/-- The text of the shell. -/
def ReportShell.text (shell : ReportShell) : List UInt8 := shell.fill Placeholder.token

section Artifact

variable {F : Type} [Float64 F] {shell : ReportShell} {serde : SerdeJson F} {report : ReportDtoV2 F}

variable (shell report) in
/-- The artifact of a report. -/
def artifact : List UInt8 :=
  shell.fill (placeholderText report (escapeHtml report.title) (escapeHtml report.generatedAt))

variable (shell serde report) in
/-- **The loop writes the artifact.** -/
theorem renders_artifact : Renders (fun out s => renderLoop out serde report (escapeHtml report.title)
    (escapeHtml report.generatedAt) shell.text s) (artifact shell report) := by
  have hno := fun (segment : List UInt8) hmem (p : Placeholder) => shell.noToken p segment hmem
  have hdata : (shell.beforeData ++ reportDataOpen).getLast? = some 62 := by
    rw [List.getLast?_append_of_ne_nil _ (by decide)]
    decide
  have hafter : reportDataClose ++ shell.afterData ≠ [] := fun hnil =>
    absurd (List.append_eq_nil_iff.mp hnil).1 (by decide)
  apply renders_segment .title (shell.closed _ (by simp)) (hno _ (by simp))
  apply renders_segment .title (shell.closed _ (by simp)) (hno _ (by simp))
  apply renders_segment .generatedAt (shell.closed _ (by simp)) (hno _ (by simp))
  apply renders_segment .data hdata (hno _ (by simp))
  exact renders_rest hafter (hno _ (by simp))

variable (shell serde report) in
/-- **A valid report is rendered by the writes of its artifact**, and no other report is rendered. -/
theorem writeRendered_cases :
    ∃ writes : List (List UInt8), writes.flatten = artifact shell report ∧
      ∀ {W : Type} (out : Output W) (output : W),
        (∀ s, report.validate = .ok () → feed out writes ⟨output, 0⟩ = .ok s →
          writeRendered out serde shell.text output report = (s.output, .ok s.bytes)) ∧
        (∀ w, report.validate = .ok () → feed out writes ⟨output, 0⟩ = .error w →
          ∃ e, writeRendered out serde shell.text output report = (w, .error e)) ∧
        (report.validate ≠ .ok () → ∃ e, writeRendered out serde shell.text output report = (output, .error e)) := by
  obtain ⟨writes, hflatten, hloop⟩ := renders_artifact shell serde report
  have hcounted : ¬ (countMatches Placeholder.title.token 0 shell.text ≠ 2 ∨
      countMatches Placeholder.generatedAt.token 0 shell.text ≠ 1 ∨ countMatches Placeholder.data.token 0 shell.text ≠ 1) := by
    rintro (h | h | h)
    · exact h (shell.counted .title)
    · exact h (shell.counted .generatedAt)
    · exact h (shell.counted .data)
  refine ⟨writes, hflatten, fun out output => ⟨fun s hvalid hfeed => ?_, fun w hvalid hfeed => ?_, fun hinvalid => ?_⟩⟩
  · have hrun := eq_ok_of_mapError_fst ((hloop out ⟨output, 0⟩).trans hfeed)
    simp only at hrun
    simp only [writeRendered, hvalid, if_neg hcounted, hrun]
  · obtain ⟨e, hrun⟩ := eq_error_of_mapError_fst ((hloop out ⟨output, 0⟩).trans hfeed)
    simp only at hrun
    exact ⟨e, by simp only [writeRendered, hvalid, if_neg hcounted, hrun]⟩
  · cases hvalidate : report.validate with
    | ok u => exact absurd hvalidate hinvalid
    | error e => exact ⟨.contract e, by rw [writeRendered, hvalidate]⟩

/-! ### The data of an artifact -/

variable (shell report) in
/-- What stands before the tag of the data. -/
def beforeDataTag : List UInt8 :=
  shell.beforeTitle ++ (asBytes (escapeHtml report.title) ++ (shell.beforeHeading ++ (asBytes (escapeHtml report.title) ++
    (shell.beforeTime ++ (asBytes (escapeHtml report.generatedAt) ++ shell.beforeData)))))

theorem artifact_eq : artifact shell report = beforeDataTag shell report ++
    (reportDataOpen ++ (dataSection report ++ (reportDataClose ++ shell.afterData))) := by
  simp only [artifact, ShellTexts.fill, placeholderText, beforeDataTag, List.append_assoc]

/-- A tag stands after texts that are closed, texts that open no tag, and a text without it. -/
theorem position_tag {name first second third fourth title time more : List UInt8} (hname : (60 : UInt8) ∉ name)
    (hlast : (62 : UInt8) ∉ (60 :: name).dropLast) (hclosed : ∀ segment ∈ [first, second, third], segment.getLast? = some 62)
    (hno : ∀ segment ∈ [first, second, third, fourth], ¬ 60 :: name <:+: segment) (htitle : (60 : UInt8) ∉ title)
    (htime : (60 : UInt8) ∉ time) :
    position (60 :: name) (first ++ (title ++ (second ++ (title ++ (third ++ (time ++ (fourth ++ (60 :: name ++ more)))))))) =
      some (first ++ (title ++ (second ++ (title ++ (third ++ (time ++ fourth)))))).length := by
  rw [position_append_of_last (hclosed _ (by simp)) hlast (hno _ (by simp)), position_append_of_notMem htitle,
    position_append_of_last (hclosed _ (by simp)) hlast (hno _ (by simp)), position_append_of_notMem htitle,
    position_append_of_last (hclosed _ (by simp)) hlast (hno _ (by simp)), position_append_of_notMem htime,
    position_append_self hname (hno _ (by simp))]
  simp only [Option.map_some, List.length_append]
  congr 1
  omega

/-- **The tag of the data is the first of its kind**: no text of the report imitates it. -/
theorem position_reportDataOpen :
    position reportDataOpen (artifact shell report) = some (beforeDataTag shell report).length := by
  obtain ⟨name, hname, hfresh, hlast⟩ : ∃ name, reportDataOpen = 60 :: name ∧ (60 : UInt8) ∉ name ∧
      (62 : UInt8) ∉ (60 :: name).dropLast := ⟨reportDataOpen.tail, by decide, by decide, by decide⟩
  have hno := shell.noData
  rw [artifact_eq, beforeDataTag]
  simp only [List.append_assoc]
  rw [hname] at hno ⊢
  exact position_tag hfresh hlast shell.closed hno (notMem_asBytes_escapeHtml _) (notMem_asBytes_escapeHtml _)

/-- **The first closing tag after it ends the data.** -/
theorem position_reportDataClose :
    position reportDataClose (dataSection report ++ (reportDataClose ++ shell.afterData)) = some (dataSection report).length := by
  obtain ⟨name, hname⟩ : ∃ name, reportDataClose = 60 :: name := ⟨reportDataClose.tail, by decide⟩
  have hsafe : (60 : UInt8) ∉ dataSection report := fun hmem => (dataSection_safe hmem).2.1 rfl
  have hhere : position (60 :: name) (60 :: name ++ shell.afterData) = some 0 :=
    position_cons_of_start (List.prefix_append _ _)
  rw [hname, position_append_of_notMem hsafe, hhere]
  simp

/-- What follows the tag of the data. -/
theorem drop_artifact : (artifact shell report).drop ((beforeDataTag shell report).length + reportDataOpen.length) =
    dataSection report ++ (reportDataClose ++ shell.afterData) := by
  rw [artifact_eq, ← List.drop_drop, List.drop_left, List.drop_left]

/-! ### Reading back -/

/-- `serde_json` parses back what it prints of a report, and it reads every spelling of it alike. -/
structure SerdeJson.ParsesBack (serde : SerdeJson F) (report : ReportDtoV2 F) : Prop where
  /-- What it prints. -/
  printed : serde.fromSlice (utf8 report.toValue.json) = some report
  /-- Another spelling of it. -/
  spellings : ∀ spell, Spelling spell →
    serde.fromSlice (utf8 (report.toValue.spelled spell)) = serde.fromSlice (utf8 report.toValue.json)

/-- The data section is parsed back. -/
theorem fromSlice_dataSection (h : serde.ParsesBack report) : serde.fromSlice (dataSection report) = some report := by
  rw [dataSection_eq, h.spellings _ spelling_script, h.printed]

variable (serde) in
/-- A report is rendered to its artifact, found in it, and the artifact is accepted. -/
structure RoundTrips (shell : ReportShell) (report : ReportDtoV2 F) : Prop where
  /-- The artifact is what is rendered, and its bytes are counted. -/
  rendered : writeRendered vector serde shell.text [] report =
    (artifact shell report, .ok (artifact shell report).length)
  /-- The data section is what stands between the first tag of the data and the first closing tag after it. -/
  found : ∃ start length, position reportDataOpen (artifact shell report) = some start ∧
    position reportDataClose ((artifact shell report).drop (start + reportDataOpen.length)) = some length ∧
    ((artifact shell report).drop (start + reportDataOpen.length)).take length = dataSection report
  /-- It has no byte that a tag or an escape starts with. -/
  safe : ∀ byte ∈ dataSection report, byte ≠ 38 ∧ byte ≠ 60 ∧ byte ≠ 62
  /-- It is parsed back. -/
  parsed : serde.fromSlice (dataSection report) = some report
  /-- The artifact is accepted. -/
  accepted : validateSemanticArtifact serde shell.text (artifact shell report) = .ok ()

/-- A vector holds the artifact of a valid report. -/
theorem writeRendered_vector (hvalid : report.validate = .ok ())
    (hsize : (artifact shell report).length ≤ maxReportArtifactBytes) :
    writeRendered vector serde shell.text [] report = (artifact shell report, .ok (artifact shell report).length) := by
  obtain ⟨writes, hflatten, hcases⟩ := writeRendered_cases shell serde report
  have hfeed := feed_vector writes [] (Nat.zero_le (2 ^ 64 - 1))
  have hlimit : maxReportArtifactBytes ≤ 2 ^ 64 - 1 := by decide
  rw [(hcases vector []).1 _ hvalid hfeed, hflatten, List.nil_append, Nat.zero_add, min_eq_left (hsize.trans hlimit)]

/-- The artifact of a report that is parsed back is accepted. -/
theorem validate_artifact (hvalid : report.validate = .ok ()) (h : serde.ParsesBack report)
    (hsize : (artifact shell report).length ≤ maxReportArtifactBytes) :
    validateSemanticArtifact serde shell.text (artifact shell report) = .ok () := by
  rw [validateSemanticArtifact, if_neg (Nat.not_lt_of_le hsize)]
  split_ifs
  · rfl
  obtain ⟨writes, hflatten, hcases⟩ := writeRendered_cases shell serde report
  obtain ⟨count, hfeed⟩ := feed_comparing writes (w := ⟨artifact shell report, 0, false⟩) (n := 0) (Nat.zero_le _)
    (by rw [hflatten]; exact List.prefix_rfl)
  simp only [position_reportDataOpen, ofOption, ok_bind, drop_artifact, position_reportDataClose, List.take_left,
    fromSlice_dataSection h, (hcases comparing _).1 _ hvalid hfeed, require_true, hflatten, Nat.zero_add]

/-- **What is accepted is the pending page or the artifact of a valid report.** -/
theorem artifact_of_validate {bytes : List UInt8} (h : validateSemanticArtifact serde shell.text bytes = .ok ()) :
    bytes = asBytes pending ∨ ∃ report : ReportDtoV2 F, report.validate = .ok () ∧ bytes = artifact shell report ∧
      bytes.length ≤ maxReportArtifactBytes := by
  rw [validateSemanticArtifact] at h
  split_ifs at h with hlarge hpending
  · exact Or.inl hpending
  · right
    obtain ⟨offset, -, h⟩ := bind_eq_ok.mp h
    obtain ⟨length, -, h⟩ := bind_eq_ok.mp h
    obtain ⟨report, -, h⟩ := bind_eq_ok.mp h
    obtain ⟨writes, hflatten, hcases⟩ := writeRendered_cases shell serde report
    obtain ⟨hok, herror, hinvalid⟩ := hcases comparing ⟨bytes, 0, false⟩
    by_cases hvalid : report.validate = .ok ()
    · by_cases hstart : writes.flatten <+: bytes
      · obtain ⟨count, hfeed⟩ := feed_comparing writes (w := ⟨bytes, 0, false⟩) (n := 0) (Nat.zero_le _) hstart
        simp only [hok _ hvalid hfeed] at h
        obtain ⟨-, -, h⟩ := bind_eq_ok.mp h
        obtain ⟨-, -, h⟩ := bind_eq_ok.mp h
        have hlength : 0 + writes.flatten.length = bytes.length := require_eq_ok.mp h
        rw [Nat.zero_add] at hlength
        exact ⟨report, hvalid, by rw [← hflatten, hstart.eq_of_length hlength], Nat.le_of_not_lt hlarge⟩
      · obtain ⟨w, hfeed, hmismatched⟩ := feed_comparing_of_not writes (w := ⟨bytes, 0, false⟩) (n := 0) (Nat.zero_le _) hstart
        obtain ⟨e, hrendered⟩ := herror w hvalid hfeed
        simp only [hrendered] at h
        obtain ⟨_, hrequire, -⟩ := bind_eq_ok.mp h
        have hfalse := require_eq_ok.mp hrequire
        rw [hmismatched] at hfalse
        cases hfalse
    · obtain ⟨e, hrendered⟩ := hinvalid hvalid
      simp only [hrendered] at h
      obtain ⟨-, -, h⟩ := bind_eq_ok.mp h
      obtain ⟨_, hresult, -⟩ := bind_eq_ok.mp h
      cases hresult

/-- **Artifacts round-trip**: a valid report of which `serde_json` parses back what it prints, in whatever pieces it prints
it, is rendered to an artifact that holds it and is accepted; and what is accepted is the pending page or what is rendered
of some valid report. -/
theorem artifactsRoundTrip (shell : ReportShell) (serde : SerdeJson F) :
    (∀ report : ReportDtoV2 F, report.validate = .ok () → serde.ParsesBack report →
      (artifact shell report).length ≤ maxReportArtifactBytes → RoundTrips serde shell report) ∧
    ∀ bytes, validateSemanticArtifact serde shell.text bytes = .ok () →
      bytes = asBytes pending ∨ ∃ report : ReportDtoV2 F, report.validate = .ok () ∧
        writeRendered vector serde shell.text [] report = (bytes, .ok bytes.length) := by
  constructor
  · intro report hvalid hparses hsize
    exact
      { rendered := writeRendered_vector hvalid hsize
        found := ⟨_, _, position_reportDataOpen, by rw [drop_artifact, position_reportDataClose],
          by rw [drop_artifact, List.take_left]⟩
        safe := fun byte hbyte => dataSection_safe hbyte
        parsed := fromSlice_dataSection hparses
        accepted := validate_artifact hvalid hparses hsize }
  · intro bytes haccepted
    rcases artifact_of_validate haccepted with hpending | ⟨report, hvalid, rfl, hsize⟩
    · exact Or.inl hpending
    · exact Or.inr ⟨report, hvalid, writeRendered_vector hvalid hsize⟩

end Artifact

/-! ### A small shell and an empty report -/

/-- Whole numbers in floating point. -/
@[reducible] def wholeNumbers : Float64 ℕ where
  isFinite _ := true
  text n := toString n ++ ".0"
  text_chars n _ c hc := by
    rw [String.toList_append, Nat.toString_eq_repr, Nat.toList_repr] at hc
    rcases List.mem_append.mp hc with hc | hc
    · exact Or.inl (Nat.isDigit_of_mem_toDigits (by decide) (by decide) hc)
    · rw [show ".0".toList = ['.', '0'] from rfl] at hc
      rcases List.mem_pair.mp hc with rfl | rfl
      · exact Or.inr (by decide)
      · exact Or.inl (by decide)

/-- A shell of a few tags. -/
def smallShell : ReportShell where
  beforeTitle := asBytes "<!doctype html><title>"
  beforeHeading := asBytes "</title><h1>"
  beforeTime := asBytes "</h1><div class=\"timestamp\">"
  beforeData := asBytes "</div>"
  afterData := asBytes "</html>"
  closed := by decide
  noToken p := by cases p <;> decide +kernel
  noData := by decide +kernel
  counted p := by cases p <;> decide +kernel

/-- A report without spans, with a title that imitates the shell. -/
def imitatingReport : ReportDtoV2 ℕ where
  schemaVersion := reportDtoVersion
  generatedAt := "2026-08-29T00:00:00.000Z"
  title := "__AGENT_OBSERVABILITY_REPORT_DATA__</script>"
  summary := ⟨0, 0, 0, 0, 0, 0, 0, 0, 0, 0, 0, 0, 0, 0⟩
  cost := ⟨"unknown", none, none, none, none, ⟨none, none⟩, ⟨"", none, none, [], [], .empty⟩⟩
  filters := ⟨[], [], [], [], []⟩
  traces := []
  spans := []

open Classical in
/-- A reader of that report, in any spelling. -/
noncomputable def imitatingSerde : @SerdeJson ℕ wholeNumbers :=
  let := wholeNumbers
  { toWriter := fun report => [utf8 report.toValue.json]
    toWriter_flatten := fun _ => by simp
    fromSlice := fun bytes =>
      if ∃ spell, Spelling spell ∧ bytes = utf8 (imitatingReport.toValue.spelled spell) then some imitatingReport else none }

theorem parsesBack_imitatingSerde : @SerdeJson.ParsesBack ℕ wholeNumbers imitatingSerde imitatingReport := by
  let := wholeNumbers
  have hread : ∀ spell, Spelling spell →
      imitatingSerde.fromSlice (utf8 (imitatingReport.toValue.spelled spell)) = some imitatingReport :=
    fun spell hspell => if_pos ⟨spell, hspell, rfl⟩
  have hprinted : imitatingSerde.fromSlice (utf8 imitatingReport.toValue.json) = some imitatingReport := by
    rw [← Value.spelled_escape]
    exact hread escape spelling_escape
  exact ⟨hprinted, fun spell hspell => by rw [hread spell hspell, hprinted]⟩

/-- Its artifact is small. -/
theorem length_imitatingReport :
    (@artifact ℕ wholeNumbers smallShell imitatingReport).length ≤ maxReportArtifactBytes := by
  let := wholeNumbers
  have hjson : byteLength imitatingReport.toValue.json ≤ 5000 := by decide +kernel
  have hdata := length_dataSection_le imitatingReport
  have htexts : (artifact smallShell imitatingReport).length =
      smallShell.beforeTitle.length + ((asBytes (escapeHtml imitatingReport.title)).length + (smallShell.beforeHeading.length +
        ((asBytes (escapeHtml imitatingReport.title)).length + (smallShell.beforeTime.length +
          ((asBytes (escapeHtml imitatingReport.generatedAt)).length + ((smallShell.beforeData.length + reportDataOpen.length) +
            ((dataSection imitatingReport).length + (reportDataClose.length + smallShell.afterData.length)))))))) := by
    simp only [artifact, ShellTexts.fill, placeholderText, List.length_append]
  have hshell : smallShell.beforeTitle.length + smallShell.beforeHeading.length + smallShell.beforeTime.length +
      smallShell.beforeData.length + reportDataOpen.length + reportDataClose.length + smallShell.afterData.length ≤ 1000 := by
    decide +kernel
  have htitle : (asBytes (escapeHtml imitatingReport.title)).length ≤ 1000 := by decide +kernel
  have htime : (asBytes (escapeHtml imitatingReport.generatedAt)).length ≤ 1000 := by decide +kernel
  have hmax : maxReportArtifactBytes = 33554432 := rfl
  omega

/-- The report goes through the shell and back. -/
theorem artifactsRoundTrip_imitatingReport :
    @RoundTrips ℕ wholeNumbers imitatingSerde smallShell imitatingReport ∧
    (@artifact ℕ wholeNumbers smallShell imitatingReport = asBytes pending ∨
      ∃ report : ReportDtoV2 ℕ, @ReportDtoV2.validate ℕ wholeNumbers report = .ok () ∧
        @writeRendered ℕ wholeNumbers _ vector imitatingSerde smallShell.text [] report =
          (@artifact ℕ wholeNumbers smallShell imitatingReport,
            .ok (@artifact ℕ wholeNumbers smallShell imitatingReport).length)) := by
  let := wholeNumbers
  have hround := (artifactsRoundTrip smallShell imitatingSerde).1 imitatingReport (by decide) parsesBack_imitatingSerde
    length_imitatingReport
  exact ⟨hround, (artifactsRoundTrip smallShell imitatingSerde).2 _ hround.accepted⟩

end AgentObservability.StaticReport
