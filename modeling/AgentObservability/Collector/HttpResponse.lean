import AgentObservability.Foundation.Delivery
import AgentObservability.Foundation.JsonValue
import AgentObservability.Contracts.Privacy
import AgentObservability.Collector.RequestHeaders

/-!
# The response to a collector request

A client of the collector reads the response in pieces and parses what it has after
each. `Message` says what a response is, apart from how it is read: a header block up to
the first empty line, with a status and one content length, and a body of that length.
-/

namespace AgentObservability.Collector

open Foundation Foundation.Json Contracts

/-- `CollectorError`, as far as a response can raise it. -/
inductive CollectorError where
  /-- `Io`. -/
  | io (error : IoError)
  /-- `Runtime`. -/
  | runtime (message : String)
  deriving DecidableEq, Repr

/-- `AuthenticatedResponse`. -/
structure AuthenticatedResponse where
  status : UInt16
  body : List UInt8
  deriving DecidableEq, Repr

/-! ### Texts -/

/-- `str::split("\r\n")`. -/
def splitCrlf : List Char → List (List Char)
  | [] => [[]]
  | '\r' :: '\n' :: text => [] :: splitCrlf text
  | c :: text =>
    match splitCrlf text with
    | [] => [[c]]
    | line :: lines => (c :: line) :: lines

/-- `str::split_whitespace`. -/
def splitWhitespace (text : List Char) : List (List Char) :=
  (text.splitBy fun a b => isWhitespace a == isWhitespace b).filter fun word => !word.any isWhitespace

/-- `str::trim`. -/
def trim (text : List Char) : List Char := ((text.dropWhile isWhitespace).reverse.dropWhile isWhitespace).reverse

/-- `str::parse::<u16>`. -/
def parseU16 (text : List Char) : Option UInt16 :=
  (parseU64 (String.ofList text)).bind fun n => if n < 65536 then some n.toUInt16 else none

/-- `str::parse::<usize>`. -/
def parseUsize (text : List Char) : Option ℕ := (parseU64 (String.ofList text)).map UInt64.toNat

/-- `str::eq_ignore_ascii_case`. -/
def eqIgnoreAsciiCase (text : List Char) (other : String) : Bool := asciiLowercase text = asciiLowercase other.toList

/-! ### The parser -/

/-- The status of a response, from its first line. -/
def statusOf (line : List Char) : Option UInt16 := (splitWhitespace line)[1]?.bind parseU16

/-- The loop over the header lines. -/
def contentLengthOf : Option ℕ → List (List Char) → Except CollectorError (Option ℕ)
  | contentLength, [] => .ok contentLength
  | contentLength, line :: lines =>
    match splitOnce ':' line with
    | none => .error (.runtime "collector response header is invalid")
    | some (name, value) =>
      if eqIgnoreAsciiCase name "transfer-encoding" then
        .error (.runtime "collector response transfer encoding is unsupported")
      else if eqIgnoreAsciiCase name "content-length" then
        match parseUsize (trim value) with
        | none => .error (.runtime "collector response content length is invalid")
        | some length =>
          if contentLength.isSome then .error (.runtime "collector response has duplicate content length")
          else contentLengthOf (some length) lines
      else contentLengthOf contentLength lines

/-- What the header block says: the status, and the length of the body. -/
def parseHeaders (head : List UInt8) : Except CollectorError (UInt16 × ℕ) :=
  match String.fromUTF8? ⟨head.toArray⟩ with
  | none => .error (.runtime "collector response headers are not UTF-8")
  | some headers =>
    let lines := splitCrlf headers.toList
    match lines.head?.bind statusOf with
    | none => .error (.runtime "collector response is invalid")
    | some status =>
      match contentLengthOf none lines.tail with
      | .error error => .error error
      | .ok none => .error (.runtime "collector response has no content length")
      | .ok (some contentLength) => .ok (status, contentLength)

/-- `parse_complete_http_response`. -/
def parseCompleteHttpResponse (response : List UInt8) : Except CollectorError (Option AuthenticatedResponse) :=
  match position headerTerminator response with
  | none => .ok none
  | some headerEnd =>
    match parseHeaders (response.take headerEnd) with
    | .error error => .error error
    | .ok (status, contentLength) =>
      let bodyStart := headerEnd + 4
      let expected := min (bodyStart + contentLength) (2 ^ 64 - 1)
      if response.length < expected then .ok none
      else if response.length ≠ expected then .error (.runtime "collector response has trailing bytes")
      else .ok (some ⟨status, response.drop bodyStart⟩)

/-- `MAX_RESPONSE_BYTES`. -/
def maxResponseBytes : ℕ := 4 * 1024

/-- What one `read` puts into the buffer. -/
abbrev Chunk := {bytes : List UInt8 // bytes.length ≤ 512}

universe u

variable {σ : Type u} (read : σ → Except IoError Chunk × σ)

/-- A read, its failure as the error of the collector. -/
def readChunk (stream : σ) : Except CollectorError (List UInt8) × σ :=
  match read stream with
  | (.ok chunk, stream) => (.ok chunk.1, stream)
  | (.error error, stream) => (.error (.io error), stream)

/-- `read_bounded_http_response`. -/
def readBoundedHttpResponse (stream : σ) : Except CollectorError AuthenticatedResponse × σ :=
  readUntil (readChunk read) maxResponseBytes (.runtime "collector response is oversized")
    (.runtime "collector response is incomplete") parseCompleteHttpResponse [] stream

/-! ### What a response is -/

/-- The line is a header of this name, in any case. -/
def named (name : String) (line : List Char) : Bool :=
  (splitOnce ':' line).any fun (field, _) => eqIgnoreAsciiCase field name

/-- The value of the header is this length. -/
def GivesLength (line : List Char) (length : ℕ) : Prop :=
  ∃ field value, splitOnce ':' line = some (field, value) ∧ parseUsize (trim value) = some length

/-- The lines are headers, none of them says how the body is encoded, and one gives its length. -/
structure HeaderLines (lines : List (List Char)) (length : ℕ) : Prop where
  header : ∀ line ∈ lines, (splitOnce ':' line).isSome = true
  encoding : ∀ line ∈ lines, named "transfer-encoding" line = false
  length : ∃ line, lines.filter (named "content-length") = [line] ∧ GivesLength line length

/-- A header block with this status, and this length of the body. -/
structure HeaderBlock (head : List UInt8) (status : UInt16) (length : ℕ) : Prop where
  lines : ∃ headers statusLine lines, String.fromUTF8? ⟨head.toArray⟩ = some headers ∧
    splitCrlf headers.toList = statusLine :: lines ∧ statusOf statusLine = some status ∧ HeaderLines lines length

/-- A response: a header block that ends where the first empty line does, and a body of the length it gives. -/
structure Message (bytes : List UInt8) (response : AuthenticatedResponse) : Prop where
  parts : ∃ head, bytes = head ++ headerTerminator ++ response.body ∧
    position headerTerminator bytes = some head.length ∧ HeaderBlock head response.status response.body.length

/-! ### The parser is exact -/

/-- A header that the parser passes over. -/
def Ordinary (line : List Char) : Prop :=
  (splitOnce ':' line).isSome = true ∧ named "transfer-encoding" line = false ∧ named "content-length" line = false

theorem contentLengthOf_some (length : ℕ) (lines : List (List Char)) (n : ℕ) :
    contentLengthOf (some length) lines = .ok (some n) ↔ length = n ∧ ∀ line ∈ lines, Ordinary line := by
  induction lines with
  | nil => simp [contentLengthOf]
  | cons line lines ih =>
    unfold contentLengthOf
    rw [List.forall_mem_cons]
    unfold Ordinary named at *
    cases hline : splitOnce ':' line with
    | none => simp
    | some header =>
      by_cases htransfer : eqIgnoreAsciiCase header.1 "transfer-encoding" = true
      · simp [htransfer]
      · by_cases hlength : eqIgnoreAsciiCase header.1 "content-length" = true
        · cases hvalue : parseUsize (trim header.2) <;> simp [htransfer, hlength, hvalue]
        · simp [htransfer, hlength, ih]

theorem headerLines_cons_ordinary {line : List Char} {lines : List (List Char)} {n : ℕ} (h : Ordinary line) :
    HeaderLines (line :: lines) n ↔ HeaderLines lines n := by
  obtain ⟨hheader, hencoding, hlength⟩ := h
  have hfilter : (line :: lines).filter (named "content-length") = lines.filter (named "content-length") :=
    List.filter_cons_of_neg (by rw [hlength]; decide)
  constructor
  · intro hlines
    have hone := hlines.length
    rw [hfilter] at hone
    exact ⟨(List.forall_mem_cons.mp hlines.header).2, (List.forall_mem_cons.mp hlines.encoding).2, hone⟩
  · intro hlines
    refine ⟨List.forall_mem_cons.mpr ⟨hheader, hlines.header⟩, List.forall_mem_cons.mpr ⟨hencoding, hlines.encoding⟩, ?_⟩
    rw [hfilter]
    exact hlines.length

theorem headerLines_cons_length {line : List Char} {lines : List (List Char)} {n : ℕ}
    (hheader : (splitOnce ':' line).isSome = true) (hencoding : named "transfer-encoding" line = false)
    (hlength : named "content-length" line = true) :
    HeaderLines (line :: lines) n ↔ GivesLength line n ∧ ∀ other ∈ lines, Ordinary other := by
  have hfilter : (line :: lines).filter (named "content-length") = line :: lines.filter (named "content-length") :=
    List.filter_cons_of_pos hlength
  constructor
  · intro hlines
    obtain ⟨one, hone, hgives⟩ := hlines.length
    rw [hfilter, List.cons.injEq] at hone
    obtain ⟨rfl, hothers⟩ := hone
    refine ⟨hgives, fun other hmem => ?_⟩
    have hother := List.filter_eq_nil_iff.mp hothers other hmem
    exact ⟨hlines.header other (List.mem_cons_of_mem _ hmem), hlines.encoding other (List.mem_cons_of_mem _ hmem),
      Bool.not_eq_true _ ▸ hother⟩
  · rintro ⟨hgives, hothers⟩
    refine ⟨List.forall_mem_cons.mpr ⟨hheader, fun other hmem => (hothers other hmem).1⟩,
      List.forall_mem_cons.mpr ⟨hencoding, fun other hmem => (hothers other hmem).2.1⟩, line, ?_, hgives⟩
    rw [hfilter, List.cons.injEq, List.filter_eq_nil_iff]
    exact ⟨rfl, fun other hmem => by rw [(hothers other hmem).2.2]; decide⟩

/-- **The loop finds a length exactly in the lines that give one.** -/
theorem contentLengthOf_none (lines : List (List Char)) (n : ℕ) :
    contentLengthOf none lines = .ok (some n) ↔ HeaderLines lines n := by
  induction lines with
  | nil =>
    refine iff_of_false nofun (fun h => ?_)
    obtain ⟨_, h, -⟩ := h.length
    cases h
  | cons line lines ih =>
    unfold contentLengthOf
    cases hline : splitOnce ':' line with
    | none =>
      refine iff_of_false nofun (fun h => ?_)
      have hheader := h.header line List.mem_cons_self
      rw [hline] at hheader
      cases hheader
    | some header =>
      obtain ⟨field, value⟩ := header
      have hheader : (splitOnce ':' line).isSome = true := by rw [hline]; rfl
      have hnamed : ∀ name, named name line = eqIgnoreAsciiCase field name := fun name => by
        unfold named
        rw [hline]
        rfl
      by_cases htransfer : eqIgnoreAsciiCase field "transfer-encoding" = true
      · simp only [htransfer, if_true]
        refine iff_of_false nofun (fun h => ?_)
        have hencoding := h.encoding line List.mem_cons_self
        rw [hnamed, htransfer] at hencoding
        cases hencoding
      · simp only [htransfer, Bool.false_eq_true, if_false]
        have hencoding : named "transfer-encoding" line = false := by
          rw [hnamed]
          exact Bool.not_eq_true _ ▸ htransfer
        by_cases hlength : eqIgnoreAsciiCase field "content-length" = true
        · simp only [hlength, if_true]
          rw [headerLines_cons_length hheader hencoding (by rw [hnamed]; exact hlength)]
          unfold GivesLength
          cases hvalue : parseUsize (trim value) with
          | none => simp [hline, hvalue]
          | some length =>
            simp only [Option.isSome_none, Bool.false_eq_true, if_false]
            rw [contentLengthOf_some]
            simp [hline, hvalue]
        · simp only [hlength, Bool.false_eq_true, if_false]
          rw [ih, headerLines_cons_ordinary ⟨hheader, hencoding, by rw [hnamed]; exact Bool.not_eq_true _ ▸ hlength⟩]

theorem parseHeaders_eq_ok {head : List UInt8} {status : UInt16} {length : ℕ} :
    parseHeaders head = .ok (status, length) ↔ HeaderBlock head status length := by
  have hblock : HeaderBlock head status length ↔ _ := ⟨HeaderBlock.lines, HeaderBlock.mk⟩
  rw [hblock]
  unfold parseHeaders
  cases String.fromUTF8? ⟨head.toArray⟩ with
  | none => simp
  | some headers =>
    simp only
    cases hlines : splitCrlf headers.toList with
    | nil => simp [hlines]
    | cons statusLine lines =>
      cases hstatus : statusOf statusLine with
      | none => simp [hlines, hstatus]
      | some found =>
        have hfound : contentLengthOf none lines = .ok (some length) ↔ HeaderLines lines length :=
          contentLengthOf_none lines length
        simp only [List.head?_cons, Option.bind_some, hstatus, List.tail_cons]
        cases hlength : contentLengthOf none lines with
        | error _ => simp_all
        | ok contentLength =>
          cases contentLength with
          | none => simp_all
          | some n =>
            constructor
            · intro h
              cases h
              exact ⟨headers, statusLine, lines, rfl, hlines, hstatus, hfound.mp hlength⟩
            · rintro ⟨_, _, _, ⟨⟩, hsplit, hfirst, hheader⟩
              rw [hlines] at hsplit
              cases hsplit
              rw [hstatus] at hfirst
              cases hfirst
              rw [← hfound, hlength] at hheader
              cases hheader
              rfl

/-- How the parser gets to a response. -/
theorem parseComplete_eq_some {bytes : List UInt8} {response : AuthenticatedResponse} :
    parseCompleteHttpResponse bytes = .ok (some response) ↔
      ∃ headerEnd contentLength, position headerTerminator bytes = some headerEnd ∧
        parseHeaders (bytes.take headerEnd) = .ok (response.status, contentLength) ∧
        bytes.length = min (headerEnd + 4 + contentLength) (2 ^ 64 - 1) ∧ response.body = bytes.drop (headerEnd + 4) := by
  unfold parseCompleteHttpResponse
  cases hposition : position headerTerminator bytes with
  | none => simp
  | some headerEnd =>
    cases hheaders : parseHeaders (bytes.take headerEnd) with
    | error _ =>
      refine iff_of_false (by simp [hheaders]) ?_
      rintro ⟨_, _, ⟨⟩, hsome, -⟩
      rw [hheaders] at hsome
      cases hsome
    | ok parsed =>
      obtain ⟨status, contentLength⟩ := parsed
      simp only [hheaders]
      constructor
      · intro h
        split_ifs at h with hshort htrailing
        · cases h
        · cases h
          exact ⟨headerEnd, contentLength, rfl, hheaders, not_not.mp htrailing, rfl⟩
      · rintro ⟨_, _, ⟨⟩, hsome, hlength, hbody⟩
        rw [hheaders] at hsome
        cases hsome
        rw [if_neg (by omega), if_neg (not_not_intro hlength), ← hbody]

/-- **The parser waits on every text that a response properly goes on from.** -/
theorem patient_parseComplete : Patient parseCompleteHttpResponse := by
  intro text more response hmore hparse
  obtain ⟨headerEnd, contentLength, hposition, hheaders, hlength, -⟩ := parseComplete_eq_some.mp hparse
  unfold parseCompleteHttpResponse
  cases hhere : position headerTerminator text with
  | none => rfl
  | some here =>
    -- the block has ended in the text: it is the block of the response
    have hsame : position headerTerminator (text ++ more) = some here := position_append hhere
    rw [hposition] at hsame
    cases hsame
    obtain ⟨-, -, hle⟩ := position_eq_some hhere
    rw [List.take_append_of_le_length (by omega)] at hheaders
    simp only [hheaders]
    have hpos := List.length_pos_iff.mpr hmore
    rw [List.length_append] at hlength
    rw [if_pos (by omega)]

/-- A text that is not too long for a length is parsed exactly if it is a response. -/
theorem parseComplete_iff {bytes : List UInt8} {response : AuthenticatedResponse} (hlen : bytes.length < 2 ^ 64 - 1) :
    parseCompleteHttpResponse bytes = .ok (some response) ↔ Message bytes response := by
  rw [parseComplete_eq_some]
  constructor
  · rintro ⟨headerEnd, contentLength, hposition, hheaders, hlength, hbody⟩
    obtain ⟨rest, hrest, hle⟩ := position_eq_some hposition
    have hfour : headerTerminator.length = 4 := rfl
    have htake : (bytes.take headerEnd).length = headerEnd := List.length_take_of_le (by omega)
    have hdrop : bytes.drop (headerEnd + 4) = rest := by
      conv_lhs => rw [hrest]
      apply List.drop_left'
      rw [List.length_append, htake, hfour]
    have hcontent : response.body.length = contentLength := by
      rw [hbody, List.length_drop]
      omega
    refine ⟨bytes.take headerEnd, ?_, by rw [htake, hposition], ?_⟩
    · rw [hbody, hdrop]
      exact hrest
    · rw [hcontent]
      exact parseHeaders_eq_ok.mp hheaders
  · rintro ⟨head, hbytes, hposition, hblock⟩
    refine ⟨head.length, response.body.length, hposition, ?_, ?_, ?_⟩
    · rw [hbytes, List.append_assoc, List.take_left]
      exact parseHeaders_eq_ok.mpr hblock
    · have hlength := congrArg List.length hbytes
      simp only [List.length_append] at hlength
      have hfour : headerTerminator.length = 4 := rfl
      omega
    · rw [hbytes]
      symm
      apply List.drop_left'
      rw [List.length_append]
      rfl

example : parseCompleteHttpResponse "HTTP/1.1 200 OK\r\ncontent-length: 5\r\n\r\nready".toUTF8.data.toList =
    .ok (some ⟨200, "ready".toUTF8.data.toList⟩) := by
  decide +kernel

/-- **The client gets a response exactly when the stream gives the bytes of one**, not too many of them,
in whatever pieces: its status and its body, and nothing is read past it. -/
theorem readBoundedHttpResponse_exact {read : σ → Except IoError Chunk × σ} {stream last : σ}
    {response : AuthenticatedResponse} :
    readBoundedHttpResponse read stream = (.ok response, last) ↔
      ∃ pieces, Delivers (readChunk read) stream pieces last ∧ pieces.flatten.length ≤ maxResponseBytes ∧
        Message pieces.flatten response := by
  have hstart : ∀ message, parseCompleteHttpResponse [] ≠ .ok (some message) := fun _ => nofun
  unfold readBoundedHttpResponse
  rw [readUntil_eq_ok patient_parseComplete hstart]
  apply exists_congr
  intro pieces
  refine and_congr_right fun _ => and_congr_right fun hle => ?_
  unfold maxResponseBytes at hle
  exact parseComplete_iff (by omega)

end AgentObservability.Collector
