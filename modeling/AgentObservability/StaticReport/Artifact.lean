import AgentObservability.StaticReport.Render

/-!
# Artifacts

What is rendered is a list of writes that does not depend on the writer (`feed`), and
the bytes of all of them are the artifact of the report: `renderLoop_feed`. A vector
keeps them, and a comparing writer takes them exactly where they are the next bytes of
its artifact. So what is rendered is accepted, and nothing else but the pending page is
(`artifactsRoundTrip`).
-/

namespace AgentObservability.StaticReport

open Foundation Foundation.Json

/-! ### Lists of writes -/

section Feed

variable {W : Type} (out : Output W)

/-- One write after the other. -/
def feed (writes : List (List UInt8)) (s : Counted W) : Except W (Counted W) :=
  writes.foldlM (fun s value => writeCounted out value s) s

@[simp] theorem feed_nil (s : Counted W) : feed out [] s = .ok s := rfl

theorem feed_cons (value : List UInt8) (writes : List (List UInt8)) (s : Counted W) :
    feed out (value :: writes) s = writeCounted out value s >>= feed out writes := rfl

theorem feed_singleton (value : List UInt8) (s : Counted W) : feed out [value] s = writeCounted out value s := by
  rw [feed_cons]
  cases writeCounted out value s <;> rfl

theorem feed_append (writes more : List (List UInt8)) (s : Counted W) :
    feed out (writes ++ more) s = feed out writes s >>= feed out more := by
  rw [feed, List.foldlM_append]
  rfl

end Feed

/-- What `JsonScriptWriter` makes of a byte. -/
def scriptByte (byte : UInt8) : List UInt8 := (scriptEscape byte).getD [byte]

/-- The writes of the loop of `JsonScriptWriter::write`, and where what it has not written starts. -/
theorem jsonScriptLoop_feed {value rest : List UInt8} {start index : ℕ} (hle : start ≤ index)
    (hrest : value.drop index = rest)
    (hplain : ∀ byte ∈ (value.drop start).take (index - start), scriptEscape byte = none) :
    ∃ writes final, writes.flatten ++ value.drop final =
        (value.drop start).take (index - start) ++ rest.flatMap scriptByte ∧
      ∀ {W : Type} (out : Output W) (s : Counted W), jsonScriptLoop out value start index rest s =
        feed out writes s >>= fun s => .ok (final, s) := by
  induction rest generalizing start index with
  | nil =>
    refine ⟨[], start, ?_, fun out s => rfl⟩
    have hlength : value.length ≤ index := List.drop_eq_nil_iff.mp hrest
    rw [List.flatten_nil, List.nil_append, List.flatMap_nil, List.append_nil, List.take_of_length_le]
    rw [List.length_drop]
    omega
  | cons byte rest ih =>
    have hnext : value.drop (index + 1) = rest := by
      rw [← List.drop_drop, hrest]
      rfl
    have hget : (value.drop start).take (index + 1 - start) = (value.drop start).take (index - start) ++ [byte] := by
      have hat : (value.drop start)[index - start]? = some byte := by
        rw [List.getElem?_drop, show start + (index - start) = index by omega, ← List.head?_drop, hrest]
        rfl
      rw [show index + 1 - start = index - start + 1 by omega, List.take_add_one, hat]
      rfl
    cases hescape : scriptEscape byte with
    | none =>
      have hkept : scriptByte byte = [byte] := by rw [scriptByte, hescape]; rfl
      obtain ⟨writes, final, hflatten, hloop⟩ := ih (Nat.le_succ_of_le hle) hnext (by
        intro b hb
        rw [hget] at hb
        rcases List.mem_append.mp hb with hb | hb
        · exact hplain b hb
        · rw [List.mem_singleton.mp hb, hescape])
      refine ⟨writes, final, ?_, fun out s => ?_⟩
      · rw [hflatten, hget, List.flatMap_cons, hkept, List.append_assoc]
      · rw [jsonScriptLoop, hescape]
        exact hloop out s
    | some escaped =>
      have hescaped : scriptByte byte = escaped := by rw [scriptByte, hescape]; rfl
      obtain ⟨writes, final, hflatten, hloop⟩ := ih (Nat.le_refl (index + 1)) hnext (by simp)
      refine ⟨(if start < index then [(value.drop start).take (index - start)] else []) ++ escaped :: writes, final, ?_,
        fun out s => ?_⟩
      · have hempty : (value.drop (index + 1)).take (index + 1 - (index + 1)) = [] := by simp
        rw [hempty, List.nil_append] at hflatten
        rw [List.flatten_append, List.flatten_cons, List.append_assoc, List.append_assoc, hflatten, List.flatMap_cons, hescaped]
        split_ifs with hlt
        · simp
        · rw [show index - start = 0 by omega]
          simp
      · rw [jsonScriptLoop, hescape]
        by_cases hlt : start < index
        · simp only [if_pos hlt, List.singleton_append, feed_cons, bind_assoc]
          exact bind_congr fun s => bind_congr fun s => hloop out s
        · simp only [if_neg hlt, List.nil_append, feed_cons, bind_assoc]
          exact bind_congr fun s => hloop out s

/-- **What `JsonScriptWriter` writes of some bytes.** -/
theorem jsonScriptWrite_feed (value : List UInt8) :
    ∃ writes, writes.flatten = value.flatMap scriptByte ∧
      ∀ {W : Type} (out : Output W) (s : Counted W), jsonScriptWrite out value s = feed out writes s := by
  obtain ⟨writes, final, hflatten, hloop⟩ := jsonScriptLoop_feed (Nat.le_refl 0) (List.drop_zero (l := value)) (by simp)
  have hlast : ∀ {W : Type} (out : Output W) (s : Counted W),
      (if final < value.length then writeCounted out (value.drop final) s else pure s) =
        feed out (if final < value.length then [value.drop final] else []) s := by
    intro W out s
    split_ifs
    · exact (feed_singleton out _ s).symm
    · rfl
  refine ⟨writes ++ (if final < value.length then [value.drop final] else []), ?_, fun out s => ?_⟩
  · rw [List.flatten_append]
    rw [Nat.sub_zero, List.take_zero, List.nil_append] at hflatten
    rw [← hflatten]
    split_ifs with hlt
    · simp
    · rw [List.drop_of_length_le (Nat.le_of_not_lt hlt)]
      simp
  · rw [jsonScriptWrite, hloop, feed_append, bind_assoc]
    exact bind_congr fun s => hlast out s

/-- **It does not matter how the bytes come in pieces.** -/
theorem jsonScriptWrites_feed (pieces : List (List UInt8)) :
    ∃ writes, writes.flatten = pieces.flatten.flatMap scriptByte ∧
      ∀ {W : Type} (out : Output W) (s : Counted W),
        pieces.foldlM (fun s piece => jsonScriptWrite out piece s) s = feed out writes s := by
  induction pieces with
  | nil => exact ⟨[], rfl, fun out s => rfl⟩
  | cons piece pieces ih =>
    obtain ⟨first, hfirst, hwrite⟩ := jsonScriptWrite_feed piece
    obtain ⟨rest, hrest, hwrites⟩ := ih
    refine ⟨first ++ rest, ?_, fun out s => ?_⟩
    · rw [List.flatten_append, hfirst, hrest, List.flatten_cons, List.flatMap_append]
    · rw [List.foldlM_cons, hwrite, feed_append]
      exact bind_congr fun s => hwrites out s

/-! ### Two writers -/

/-- A vector takes all writes. -/
theorem feed_vector (writes : List (List UInt8)) (written : List UInt8) {n : ℕ} (hn : n ≤ 2 ^ 64 - 1) :
    feed vector writes ⟨written, n⟩ =
      .ok ⟨written ++ writes.flatten, min (n + writes.flatten.length) (2 ^ 64 - 1)⟩ := by
  induction writes generalizing written n with
  | nil =>
    rw [feed_nil, List.flatten_nil, List.append_nil, List.length_nil, Nat.add_zero, min_eq_left hn]
  | cons value writes ih =>
    have hwrite : writeCounted vector value ⟨written, n⟩ = .ok ⟨written ++ value, min (n + value.length) (2 ^ 64 - 1)⟩ := rfl
    have hcount : min (min (n + value.length) (2 ^ 64 - 1) + writes.flatten.length) (2 ^ 64 - 1) =
        min (n + (value ++ writes.flatten).length) (2 ^ 64 - 1) := by
      generalize 2 ^ 64 - 1 = limit
      rw [List.length_append]
      omega
    rw [feed_cons, hwrite, ok_bind, ih _ (min_le_right _ _), hcount, List.flatten_cons, List.append_assoc]

/-- A write that comes next in the artifact is taken. -/
theorem writeCounted_comparing {w : ExactArtifactWriter} {value : List UInt8} {n : ℕ}
    (hoffset : w.offset ≤ w.artifact.length) (h : value <+: w.artifact.drop w.offset) :
    writeCounted comparing value ⟨w, n⟩ =
      .ok ⟨{ w with offset := w.offset + value.length }, min (n + value.length) (2 ^ 64 - 1)⟩ := by
  by_cases hvalue : value = []
  · simp only [writeCounted, comparing, if_pos hvalue]
    rw [hvalue]
    rfl
  · simp only [writeCounted, comparing, if_neg hvalue, ExactArtifactWriter.write, if_pos (And.intro hoffset h)]

/-- Any other is not. -/
theorem writeCounted_comparing_of_not {w : ExactArtifactWriter} {value : List UInt8} {n : ℕ}
    (h : ¬ value <+: w.artifact.drop w.offset) :
    writeCounted comparing value ⟨w, n⟩ = .error { w with mismatched := true } := by
  have hvalue : value ≠ [] := by
    rintro rfl
    exact h List.nil_prefix
  simp only [writeCounted, comparing, if_neg hvalue, ExactArtifactWriter.write, if_neg fun hboth => h (And.right hboth)]

/-- **A comparing writer takes what its artifact goes on with.** -/
theorem feed_comparing (writes : List (List UInt8)) {w : ExactArtifactWriter} {n : ℕ}
    (hoffset : w.offset ≤ w.artifact.length) (h : writes.flatten <+: w.artifact.drop w.offset) :
    ∃ count, feed comparing writes ⟨w, n⟩ = .ok ⟨{ w with offset := w.offset + writes.flatten.length }, count⟩ := by
  induction writes generalizing w n with
  | nil => exact ⟨n, rfl⟩
  | cons value writes ih =>
    rw [List.flatten_cons] at h
    have hvalue : value <+: w.artifact.drop w.offset := (List.prefix_append _ _).trans h
    have hlength := h.length_le
    rw [List.length_append, List.length_drop] at hlength
    obtain ⟨rest, hrest⟩ := h
    have hnext : writes.flatten <+: w.artifact.drop (w.offset + value.length) := by
      refine ⟨rest, ?_⟩
      rw [← List.drop_drop, ← hrest, List.append_assoc, List.drop_left]
    obtain ⟨count, hfeed⟩ := ih (w := { w with offset := w.offset + value.length })
      (n := min (n + value.length) (2 ^ 64 - 1)) (show w.offset + value.length ≤ w.artifact.length by omega) hnext
    refine ⟨count, ?_⟩
    rw [feed_cons, writeCounted_comparing hoffset hvalue, ok_bind, hfeed, List.flatten_cons, List.length_append, Nat.add_assoc]

/-- **It notices everything else.** -/
theorem feed_comparing_of_not (writes : List (List UInt8)) {w : ExactArtifactWriter} {n : ℕ}
    (hoffset : w.offset ≤ w.artifact.length) (h : ¬ writes.flatten <+: w.artifact.drop w.offset) :
    ∃ w', feed comparing writes ⟨w, n⟩ = .error w' ∧ w'.mismatched = true := by
  induction writes generalizing w n with
  | nil => exact absurd List.nil_prefix h
  | cons value writes ih =>
    rw [feed_cons]
    by_cases hvalue : value <+: w.artifact.drop w.offset
    · obtain ⟨rest, hrest⟩ := hvalue
      have hlength : value.length + rest.length = w.artifact.length - w.offset := by
        rw [← List.length_append, hrest, List.length_drop]
      have hnext : w.artifact.drop (w.offset + value.length) = rest := by
        rw [← List.drop_drop, ← hrest, List.drop_left]
      rw [writeCounted_comparing hoffset ⟨rest, hrest⟩, ok_bind]
      refine ih (show w.offset + value.length ≤ w.artifact.length by omega) fun hprefix => h ?_
      rw [List.flatten_cons, ← hrest, List.prefix_append_right_inj]
      exact hnext ▸ hprefix
    · exact ⟨_, by rw [writeCounted_comparing_of_not hvalue]; rfl, rfl⟩

/-! ### The data section -/

/-- What is written for a byte has none of the bytes that are escaped. -/
theorem scriptByte_safe {byte b : UInt8} (hb : b ∈ scriptByte byte) : b ≠ 38 ∧ b ≠ 60 ∧ b ≠ 62 := by
  unfold scriptByte scriptEscape at hb
  have hescaped : ∀ b ∈ asBytes "\\u0026" ++ asBytes "\\u003c" ++ asBytes "\\u003e", b ≠ 38 ∧ b ≠ 60 ∧ b ≠ 62 := by
    decide +kernel
  split_ifs at hb with h38 h60 h62
  · exact hescaped b (List.mem_append_left _ (List.mem_append_left _ hb))
  · exact hescaped b (List.mem_append_left _ (List.mem_append_right _ hb))
  · exact hescaped b (List.mem_append_right _ hb)
  · rw [List.mem_singleton.mp hb]
    exact ⟨h38, h60, h62⟩

/-- What `JsonScriptWriter` makes of a character. -/
def scriptRewrite (c : Char) : List Char := if c = '&' ∨ c = '<' ∨ c = '>' then unicodeEscape c else [c]

theorem script_cases (c : Char) : c ≠ '&' ∧ c ≠ '<' ∧ c ≠ '>' ∨ c = '&' ∨ c = '<' ∨ c = '>' := by
  tauto

theorem scriptRewrite_of_ne {c : Char} (h : c ≠ '&' ∧ c ≠ '<' ∧ c ≠ '>') : scriptRewrite c = [c] := by
  rw [scriptRewrite, if_neg]
  rintro (rfl | rfl | rfl)
  · exact h.1 rfl
  · exact h.2.1 rfl
  · exact h.2.2 rfl

/-- **Bytes are escaped where characters are.** -/
theorem flatMap_scriptByte (c : Char) :
    (String.utf8EncodeChar c).flatMap scriptByte = (scriptRewrite c).flatMap String.utf8EncodeChar := by
  rcases script_cases c with h | h
  · -- no byte of another character is one of the three
    have hkept : ∀ b ∈ String.utf8EncodeChar c, scriptByte b = [b] := by
      intro b hb
      have hother : ∀ d : Char, d.toNat < 128 → c ≠ d → b ≠ UInt8.ofNat d.toNat := by
        rintro d hd hne rfl
        have hnat : (UInt8.ofNat d.toNat).toNat = d.toNat := by
          rw [UInt8.toNat_ofNat']
          exact Nat.mod_eq_of_lt (by omega)
        have hsame := (utf8EncodeChar_of_mem_lt hb (by omega)).1
        rw [hnat] at hsame
        exact hne (Char.toNat_inj.mp hsame)
      have hamp : b ≠ 38 := hother '&' (by decide) h.1
      have hless : b ≠ 60 := hother '<' (by decide) h.2.1
      have hgreater : b ≠ 62 := hother '>' (by decide) h.2.2
      rw [scriptByte, scriptEscape, if_neg hamp, if_neg hless, if_neg hgreater]
      rfl
    rw [scriptRewrite_of_ne h, List.flatMap_congr hkept, List.flatMap_singleton', List.flatMap_singleton]
  · rcases h with rfl | rfl | rfl <;> decide

theorem keepsLayout_scriptRewrite : KeepsLayout scriptRewrite where
  marks := by decide
  digits c hc := by
    refine scriptRewrite_of_ne ⟨?_, ?_, ?_⟩ <;> rintro rfl <;> revert hc <;> decide

/-- An escaped document is a document in another spelling. -/
theorem spelling_script : Spelling fun c => (escape c).flatMap scriptRewrite := by
  intro c
  rcases script_cases c with h | h
  · left
    have hkept : ∀ d ∈ escape c, scriptRewrite d = [d] := by
      intro d hd
      refine scriptRewrite_of_ne ?_
      unfold escape at hd
      have hdigit : ∀ n : ℕ, n < 16 → Nat.digitChar n ≠ '&' ∧ Nat.digitChar n ≠ '<' ∧ Nat.digitChar n ≠ '>' := by decide
      split_ifs at hd with h32 hquote
      · rcases List.mem_pair.mp hd with rfl | rfl
        · decide
        · exact h
      · rw [List.mem_singleton.mp hd]
        exact h
      · rcases List.mem_pair.mp hd with rfl | rfl <;> decide
      · rcases List.mem_pair.mp hd with rfl | rfl <;> decide
      · rcases List.mem_pair.mp hd with rfl | rfl <;> decide
      · rcases List.mem_pair.mp hd with rfl | rfl <;> decide
      · rcases List.mem_pair.mp hd with rfl | rfl <;> decide
      · simp only [List.mem_cons, List.not_mem_nil, or_false] at hd
        rcases hd with rfl | rfl | rfl | rfl | rfl | rfl
        · decide
        · decide
        · decide
        · decide
        · exact hdigit _ (by omega)
        · exact hdigit _ (by omega)
    exact (List.flatMap_congr hkept).trans (List.flatMap_singleton' _)
  · right
    rcases h with rfl | rfl | rfl <;> decide

section Data

variable {F : Type} [Float64 F]

/-- The data section of an artifact. -/
def dataSection (report : ReportDtoV2 F) : List UInt8 := (utf8 report.toValue.json).flatMap scriptByte

theorem dataSection_safe {report : ReportDtoV2 F} {b : UInt8} (hb : b ∈ dataSection report) : b ≠ 38 ∧ b ≠ 60 ∧ b ≠ 62 := by
  obtain ⟨byte, -, hb⟩ := List.mem_flatMap.mp hb
  exact scriptByte_safe hb

/-- No byte becomes more than six. -/
theorem length_dataSection_le (report : ReportDtoV2 F) : (dataSection report).length ≤ 6 * byteLength report.toValue.json := by
  have hbyte : ∀ byte : UInt8, (scriptByte byte).length ≤ 6 := by
    intro byte
    have hescaped : (asBytes "\\u0026").length ≤ 6 ∧ (asBytes "\\u003c").length ≤ 6 ∧ (asBytes "\\u003e").length ≤ 6 := by decide
    unfold scriptByte scriptEscape
    split_ifs
    · exact hescaped.1
    · exact hescaped.2.1
    · exact hescaped.2.2
    · exact Nat.le_of_ble_eq_true rfl
  rw [dataSection, ← length_utf8]
  induction utf8 report.toValue.json with
  | nil => exact Nat.le_refl 0
  | cons byte bytes ih =>
    have := hbyte byte
    rw [List.flatMap_cons, List.length_append, List.length_cons]
    omega

/-- **The data section is the document of the report, in another spelling.** -/
theorem dataSection_eq (report : ReportDtoV2 F) :
    dataSection report = utf8 (report.toValue.spelled fun c => (escape c).flatMap scriptRewrite) := by
  rw [dataSection, utf8_respell flatMap_scriptByte, respell_json keepsLayout_scriptRewrite]
  intro text htext
  obtain ⟨x, hfinite, rfl⟩ := report.floatNumbers text htext
  refine keeps_of_forall fun c hc => ?_
  rcases Float64.text_chars x hfinite c hc with hdigit | hother
  · exact keepsLayout_scriptRewrite.digits c hdigit
  · simp only [List.mem_cons, List.not_mem_nil, or_false] at hother
    rcases hother with rfl | rfl | rfl | rfl <;> exact scriptRewrite_of_ne (by decide)

end Data

/-! ### Texts in a page -/

theorem toList_replace (c : Char) (replacement s : String) :
    (replace c replacement s).toList = s.toList.flatMap fun d => if d = c then replacement.toList else [d] := by
  rw [replace, String.toList_ofList]

/-- A character that was replaced is gone. -/
theorem notMem_replace {c : Char} {replacement s : String} (h : c ∉ replacement.toList) :
    c ∉ (replace c replacement s).toList := by
  rw [toList_replace]
  intro hmem
  obtain ⟨d, -, hd⟩ := List.mem_flatMap.mp hmem
  split_ifs at hd with heq
  · exact h hd
  · exact heq (List.mem_singleton.mp hd).symm

/-- A character that is not there does not come with another's replacement. -/
theorem notMem_replace_of_notMem {a c : Char} {replacement s : String} (h : a ∉ replacement.toList) (hs : a ∉ s.toList) :
    a ∉ (replace c replacement s).toList := by
  rw [toList_replace]
  intro hmem
  obtain ⟨d, hd, hmem⟩ := List.mem_flatMap.mp hmem
  split_ifs at hmem with heq
  · exact h hmem
  · exact hs (List.mem_singleton.mp hmem ▸ hd)

/-- **An escaped text opens and closes no tag.** -/
theorem notMem_escapeHtml (input : String) : '<' ∉ (escapeHtml input).toList ∧ '>' ∉ (escapeHtml input).toList := by
  constructor
  · refine notMem_replace_of_notMem (by decide) (notMem_replace_of_notMem (by decide) (notMem_replace_of_notMem (by decide) ?_))
    exact notMem_replace (by decide)
  · refine notMem_replace_of_notMem (by decide) (notMem_replace_of_notMem (by decide) ?_)
    exact notMem_replace (by decide)

theorem notMem_asBytes_escapeHtml (input : String) : (60 : UInt8) ∉ asBytes (escapeHtml input) := by
  refine notMem_utf8 (c := '<') (by decide) fun s hs => ?_
  rw [List.mem_singleton.mp hs]
  exact (notMem_escapeHtml input).1

/-! ### The next placeholder -/

theorem mem_of_minByOffset {found : List (ℕ × Placeholder)} {x : ℕ × Placeholder} (h : minByOffset found = some x) :
    x ∈ found := by
  induction found with
  | nil => cases h
  | cons y rest ih =>
    unfold minByOffset at h
    split at h
    · cases h
      exact List.mem_cons_self
    · rename_i other hother
      split_ifs at h
      · cases h
        exact List.mem_cons_self
      · cases h
        exact List.mem_cons_of_mem _ (ih hother)

/-- The least offset is found. -/
theorem minByOffset_eq {found : List (ℕ × Placeholder)} {x : ℕ × Placeholder} (hmem : x ∈ found)
    (hleast : ∀ y ∈ found, y ≠ x → x.1 < y.1) : minByOffset found = some x := by
  induction found with
  | nil => cases hmem
  | cons y rest ih =>
    have hrest : ∀ z ∈ rest, z ≠ x → x.1 < z.1 := fun z hz => hleast z (List.mem_cons_of_mem _ hz)
    unfold minByOffset
    by_cases hx : x ∈ rest
    · rw [ih hx hrest]
      by_cases hy : y = x
      · simp [hy]
      · have hlt := hleast y List.mem_cons_self hy
        simp [Nat.not_le_of_lt hlt]
    · obtain rfl : x = y := (List.mem_cons.mp hmem).resolve_right hx
      cases hmin : minByOffset rest with
      | none => rfl
      | some z =>
        have hz := mem_of_minByOffset hmin
        have hlt := hrest z hz fun heq => hx (heq ▸ hz)
        simp [Nat.le_of_lt hlt]

/-- No token starts with another. -/
theorem token_not_start {p q : Placeholder} (h : p ≠ q) : ¬ p.token <+: q.token := by
  revert h
  cases p <;> cases q <;> decide

/-- No token has a byte that ends a tag. -/
theorem notMem_token (p : Placeholder) : (62 : UInt8) ∉ p.token.dropLast := by
  cases p <;> decide

/-- **A placeholder after a text without any is found.** -/
theorem nextPlaceholder_append {segment rest : List UInt8} (p : Placeholder) (hlast : segment.getLast? = some 62)
    (hno : ∀ q : Placeholder, ¬ q.token <:+: segment) :
    nextPlaceholder (segment ++ (p.token ++ rest)) = some (segment.length, p) := by
  have hposition : ∀ q : Placeholder, position q.token (segment ++ (p.token ++ rest)) =
      (position q.token (p.token ++ rest)).map (· + segment.length) := fun q =>
    position_append_of_last hlast (notMem_token q) (hno q)
  have hhere : position p.token (p.token ++ rest) = some 0 := by
    cases p <;> exact position_cons_of_start (List.prefix_append _ _)
  have hmem : ∀ q : Placeholder, q ∈ [Placeholder.title, .generatedAt, .data] := by
    intro q
    cases q <;> decide
  apply minByOffset_eq
  · rw [List.mem_filterMap]
    refine ⟨p, hmem p, ?_⟩
    rw [hposition, hhere]
    simp
  · intro y hy hne
    obtain ⟨q, -, hq⟩ := List.mem_filterMap.mp hy
    rw [hposition, Option.map_map] at hq
    obtain ⟨i, hi, rfl⟩ := Option.map_eq_some_iff.mp hq
    have hpos : i ≠ 0 := by
      rintro rfl
      obtain ⟨more, hmore, -⟩ := position_eq_some hi
      have hstart : q.token <+: p.token ++ rest := ⟨more, hmore.symm⟩
      have hpq : q ≠ p := fun heq => hne (by simp [heq])
      rcases List.prefix_or_prefix_of_prefix hstart (List.prefix_append p.token rest) with h | h
      · exact token_not_start hpq h
      · exact token_not_start hpq.symm h
    show segment.length < i + segment.length
    omega

/-- A text without placeholders has none. -/
theorem nextPlaceholder_eq_none {text : List UInt8} (hno : ∀ q : Placeholder, ¬ q.token <:+: text) :
    nextPlaceholder text = none := by
  have hnone : ∀ q : Placeholder, position q.token text = none := fun q =>
    (position_eq_none (List.length_pos_iff.mp q.token_length_pos)).mpr (hno q)
  simp [nextPlaceholder, hnone, minByOffset]

/-! ### What the loop writes -/

/-- A step of rendering writes these bytes, whatever the writer. -/
def Renders (step : ∀ {W : Type}, Output W → Counted W → Except (W × ReportArtifactError) (Counted W))
    (bytes : List UInt8) : Prop :=
  ∃ writes : List (List UInt8), writes.flatten = bytes ∧
    ∀ {W : Type} (out : Output W) (s : Counted W), (step out s).mapError Prod.fst = feed out writes s

theorem mapError_bind {ε ε' α β : Type} (x : Except ε α) (f : α → Except ε β) (g : ε → ε') :
    (x >>= f).mapError g = x.mapError g >>= fun a => (f a).mapError g := by
  cases x <;> rfl

theorem mapError_mapError_fst {W α : Type} (x : Except W α) (e : ReportArtifactError) :
    (x.mapError (·, e)).mapError Prod.fst = x := by
  cases x <;> rfl

theorem eq_ok_of_mapError_fst {W E α : Type} {x : Except (W × E) α} {a : α} (h : x.mapError Prod.fst = .ok a) : x = .ok a := by
  cases x with
  | error e => cases h
  | ok b =>
    cases h
    rfl

theorem eq_error_of_mapError_fst {W E α : Type} {x : Except (W × E) α} {w : W} (h : x.mapError Prod.fst = .error w) :
    ∃ e, x = .error (w, e) := by
  cases x with
  | error e =>
    cases h
    exact ⟨e.2, rfl⟩
  | ok b => cases h

/-- A write. -/
theorem renders_write (value : List UInt8) :
    Renders (fun out s => (writeCounted out value s).mapError (·, .io)) value := by
  refine ⟨[value], by simp, fun out s => ?_⟩
  rw [mapError_mapError_fst, feed_singleton]

/-- One step after the other. -/
theorem Renders.bind {step next : ∀ {W : Type}, Output W → Counted W → Except (W × ReportArtifactError) (Counted W)}
    {bytes more : List UInt8} (h : Renders step bytes) (h' : Renders next more) :
    Renders (fun out s => step out s >>= next out) (bytes ++ more) := by
  obtain ⟨writes, hflatten, hstep⟩ := h
  obtain ⟨writes', hflatten', hnext⟩ := h'
  refine ⟨writes ++ writes', by rw [List.flatten_append, hflatten, hflatten'], fun out s => ?_⟩
  rw [mapError_bind, hstep, feed_append]
  exact bind_congr fun s => hnext out s

section Shell

variable {F : Type} [Float64 F] (serde : SerdeJson F) (report : ReportDtoV2 F)

/-- What stands in the place of a placeholder. -/
def placeholderText (title generatedAt : String) : Placeholder → List UInt8
  | .title => asBytes title
  | .generatedAt => asBytes generatedAt
  | .data => dataSection report

theorem renders_placeholder (title generatedAt : String) (p : Placeholder) :
    Renders (fun out s => writePlaceholder out serde report title generatedAt p s)
      (placeholderText report title generatedAt p) := by
  cases p with
  | title => exact renders_write _
  | generatedAt => exact renders_write _
  | data =>
    obtain ⟨writes, hflatten, hwrites⟩ := jsonScriptWrites_feed (serde.toWriter report)
    refine ⟨writes, ?_, fun out s => ?_⟩
    · rw [hflatten, serde.toWriter_flatten]
      rfl
    · exact (mapError_mapError_fst _ _).trans (hwrites out s)

variable {serde report}

/-- **The loop copies the text up to the next placeholder, and goes on after it.** -/
theorem renders_segment {title generatedAt : String} {segment rest more : List UInt8} (p : Placeholder)
    (hlast : segment.getLast? = some 62) (hno : ∀ q : Placeholder, ¬ q.token <:+: segment)
    (h : Renders (fun out s => renderLoop out serde report title generatedAt rest s) more) :
    Renders (fun out s => renderLoop out serde report title generatedAt (segment ++ (p.token ++ rest)) s)
      (segment ++ (placeholderText report title generatedAt p ++ more)) := by
  have hne : segment ++ (p.token ++ rest) ≠ [] := by
    intro hnil
    rw [(List.append_eq_nil_iff.mp hnil).1] at hlast
    cases hlast
  have hdrop : (segment ++ (p.token ++ rest)).drop (segment.length + p.token.length) = rest := by
    rw [← List.drop_drop, List.drop_left, List.drop_left]
  obtain ⟨writes, hflatten, hrest⟩ := (renders_write segment).bind
    ((renders_placeholder serde report title generatedAt p).bind h)
  refine ⟨writes, hflatten, fun out s => ?_⟩
  rw [← hrest]
  show (renderLoop out serde report title generatedAt (segment ++ (p.token ++ rest)) s).mapError Prod.fst = _
  rw [renderLoop, dif_neg hne, nextPlaceholder_append p hlast hno]
  simp only [List.take_left, hdrop]

/-- The loop copies the rest. -/
theorem renders_rest {title generatedAt : String} {text : List UInt8} (hne : text ≠ [])
    (hno : ∀ q : Placeholder, ¬ q.token <:+: text) :
    Renders (fun out s => renderLoop out serde report title generatedAt text s) text := by
  obtain ⟨writes, hflatten, hwrite⟩ := renders_write text
  refine ⟨writes, hflatten, fun out s => ?_⟩
  rw [← hwrite]
  show (renderLoop out serde report title generatedAt text s).mapError Prod.fst = _
  rw [renderLoop, dif_neg hne, nextPlaceholder_eq_none hno]

end Shell

end AgentObservability.StaticReport
