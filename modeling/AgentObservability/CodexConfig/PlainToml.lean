import AgentObservability.CodexConfig.Toml
import AgentObservability.Foundation.JsonText

/-!
# A plain editor

An editor for the documents that hold nothing but the manager's keys and a comment,
which prints them as `toml_edit` does. `lawful` says that it is what the manager
relies on.
-/

namespace AgentObservability.CodexConfig.PlainToml

open Foundation

/-- The text of a value on one line. -/
abbrev Line := { l : List Char // '\n' ∉ l }

/-- The table of the manager's values. -/
structure Table where
  /-- `exporter`. -/
  exporter : Option Line := none
  /-- `log_user_prompt`. -/
  logUserPrompt : Option Line := none
  /-- `environment`. -/
  environment : Option Line := none

/-- Nothing, or a comment. -/
def IsComment : List Char → Prop
  | [] => True
  | c :: _ => c = '#'

instance : DecidablePred IsComment
  | [] => isTrue trivial
  | c :: _ => inferInstanceAs (Decidable (c = '#'))

/-- A document: `notify`, the table and a comment at the end. -/
structure Document where
  /-- `notify`. -/
  notify : Option Line := none
  /-- `otel`. -/
  otel : Option Table := none
  /-- The comment. -/
  comment : { c : List Char // IsComment c } := ⟨[], trivial⟩

/-- A value or a table. -/
inductive Item where
  /-- A value. -/
  | line (l : Line)
  /-- A table. -/
  | table (t : Table)

/-! ### Texts -/

mutual

/-- The text of a value. -/
def print : TomlValue → List Char
  | .string s => '"' :: s.toList.flatMap Json.escape ++ ['"']
  | .boolean b => (toString b).toList
  | .array items => '[' :: printItems items ++ [']']
  | .inlineTable entries => "\x7b ".toList ++ printEntries entries ++ " \x7d".toList
  | .other text => text.toList

/-- The text of the items of an array. -/
def printItems : List TomlValue → List Char
  | [] => []
  | [item] => print item
  | item :: items => print item ++ ", ".toList ++ printItems items

/-- The text of the entries of an inline table. -/
def printEntries : List (String × TomlValue) → List Char
  | [] => []
  | [(key, value)] => key.toList ++ " = ".toList ++ print value
  | (key, value) :: entries => key.toList ++ " = ".toList ++ print value ++ ", ".toList ++ printEntries entries

end

/-- A value on one line. -/
def lineOf (value : TomlValue) : Line := ⟨(print value).filter (· ≠ '\n'), by simp⟩

/-- The text of an entry. -/
def entryText (key : List Char) : Option Line → List Char
  | some l => key ++ l.val ++ ['\n']
  | none => []

/-- The text of a table. -/
def Table.text (t : Table) : List Char :=
  entryText "exporter = ".toList t.exporter ++ (entryText "log_user_prompt = ".toList t.logUserPrompt ++
    entryText "environment = ".toList t.environment)

/-- The header of the table. -/
def header (notify : Option Line) : List Char := if notify.isSome then "\n[otel]\n".toList else "[otel]\n".toList

/-- The text of a document. -/
def Document.text (d : Document) : List Char :=
  entryText "notify = ".toList d.notify ++ ((match d.otel with
    | some t => header d.notify ++ t.text
    | none => []) ++ d.comment.val)

/-- A text without its beginning. -/
def strip? : List Char → List Char → Option (List Char)
  | [], text => some text
  | _ :: _, [] => none
  | c :: pre, d :: text => if c = d then strip? pre text else none

/-- The text up to the end of the line, and the rest. -/
def splitLine : List Char → List Char × List Char
  | [] => ([], [])
  | c :: text => if c = '\n' then ([], text) else ((c :: (splitLine text).1), (splitLine text).2)

theorem not_mem_splitLine (text : List Char) : '\n' ∉ (splitLine text).1 := by
  induction text with
  | nil => simp [splitLine]
  | cons c text ih =>
    rw [splitLine]
    split_ifs with hc
    · simp
    · simpa [ih] using Ne.symm hc

/-- Reads an entry, if it is there. -/
def readEntry (key text : List Char) : Option Line × List Char :=
  match strip? key text with
  | some rest => (some ⟨(splitLine rest).1, not_mem_splitLine rest⟩, (splitLine rest).2)
  | none => (none, text)

/-- Reads a table after its header. -/
def readTable (text : List Char) : Table × List Char :=
  let exporter := readEntry "exporter = ".toList text
  let logUserPrompt := readEntry "log_user_prompt = ".toList exporter.2
  let environment := readEntry "environment = ".toList logUserPrompt.2
  (⟨exporter.1, logUserPrompt.1, environment.1⟩, environment.2)

/-- Reads a document. -/
def readDocument (text : List Char) : Option Document :=
  let notify := readEntry "notify = ".toList text
  let otel := match strip? (header notify.1) notify.2 with
    | some rest => (some (readTable rest).1, (readTable rest).2)
    | none => (none, notify.2)
  if h : IsComment otel.2 then some ⟨notify.1, otel.1, ⟨otel.2, h⟩⟩ else none

/-! ### The round trip -/

theorem strip?_append (pre text : List Char) : strip? pre (pre ++ text) = some text := by
  induction pre with
  | nil => rfl
  | cons c pre ih => simpa [strip?] using ih

theorem splitLine_append {l : List Char} (h : '\n' ∉ l) (rest : List Char) : splitLine (l ++ '\n' :: rest) = (l, rest) := by
  induction l with
  | nil => rfl
  | cons c l ih =>
    obtain ⟨hc, hl⟩ := not_or.mp (mt List.mem_cons.mpr h)
    rw [List.cons_append, splitLine, if_neg (Ne.symm hc), ih hl]

/-- An entry is read back, if the rest does not begin with its key. -/
theorem readEntry_entryText {key rest : List Char} (h : strip? key rest = none) (l : Option Line) :
    readEntry key (entryText key l ++ rest) = (l, rest) := by
  cases l with
  | none => simp [entryText, readEntry, h]
  | some l =>
    have hsplit := splitLine_append l.property rest
    simp only [readEntry, entryText, List.append_assoc, List.singleton_append, strip?_append, hsplit]

theorem strip?_comment {c : Char} {key comment : List Char} (hc : c ≠ '#') (h : IsComment comment) :
    strip? (c :: key) comment = none := by
  cases comment with
  | nil => rfl
  | cons d comment =>
    obtain rfl : d = '#' := h
    exact if_neg hc

theorem readTable_text (t : Table) {comment : List Char} (h : IsComment comment) :
    readTable (t.text ++ comment) = (t, comment) := by
  have henvironment : readEntry "environment = ".toList (entryText "environment = ".toList t.environment ++ comment) =
      (t.environment, comment) := readEntry_entryText (strip?_comment (by decide) h) _
  have hlog : readEntry "log_user_prompt = ".toList (entryText "log_user_prompt = ".toList t.logUserPrompt ++
      (entryText "environment = ".toList t.environment ++ comment)) =
      (t.logUserPrompt, entryText "environment = ".toList t.environment ++ comment) := by
    apply readEntry_entryText
    cases t.environment with
    | none => exact strip?_comment (by decide) h
    | some l => rfl
  have hexporter : readEntry "exporter = ".toList (entryText "exporter = ".toList t.exporter ++
      (entryText "log_user_prompt = ".toList t.logUserPrompt ++ (entryText "environment = ".toList t.environment ++ comment))) =
      (t.exporter, entryText "log_user_prompt = ".toList t.logUserPrompt ++
        (entryText "environment = ".toList t.environment ++ comment)) := by
    apply readEntry_entryText
    cases t.logUserPrompt with
    | none =>
      cases t.environment with
      | none => exact strip?_comment (by decide) h
      | some l => rfl
    | some l => rfl
  simp only [readTable, Table.text, List.append_assoc, hexporter, hlog, henvironment]

/-- **A document is read back.** -/
theorem readDocument_text (d : Document) : readDocument d.text = some d := by
  obtain ⟨notify, otel, comment, h⟩ := d
  have hnotify : readEntry "notify = ".toList (entryText "notify = ".toList notify ++ ((match otel with
      | some t => header notify ++ t.text
      | none => []) ++ comment)) = (notify, (match otel with
      | some t => header notify ++ t.text
      | none => []) ++ comment) := by
    apply readEntry_entryText
    cases otel with
    | none => exact strip?_comment (by decide) h
    | some t =>
      cases notify with
      | none => rfl
      | some l => rfl
  simp only [readDocument, Document.text, hnotify]
  cases otel with
  | none =>
    have hheader : strip? (header notify) comment = none := by
      cases notify with
      | none => exact strip?_comment (by decide) h
      | some l => exact strip?_comment (by decide) h
    simp [hheader, h]
  | some t => simp [List.append_assoc, strip?_append, readTable_text t h, h]

/-! ### The editor -/

namespace Table

/-- `table.get(key)`. -/
def get (t : Table) (key : String) : Option Line :=
  if key = "exporter" then t.exporter
  else if key = "log_user_prompt" then t.logUserPrompt
  else if key = "environment" then t.environment
  else none

/-- `table.insert(key, item)`, or `table.remove(key)`. -/
def put (t : Table) (key : String) (l : Option Line) : Table :=
  if key = "exporter" then { t with exporter := l }
  else if key = "log_user_prompt" then { t with logUserPrompt := l }
  else if key = "environment" then { t with environment := l }
  else t

/-- `table.is_empty()`. -/
def isEmpty (t : Table) : Bool := t.exporter.isNone && t.logUserPrompt.isNone && t.environment.isNone

end Table

namespace Document

/-- `document.get(key)`. -/
def get (d : Document) (key : String) : Option Item :=
  if key = "notify" then d.notify.map .line else if key = "otel" then d.otel.map .table else none

/-- `document[key] = item`. -/
def set (d : Document) (key : String) : Item → Document
  | .line l => if key = "notify" then { d with notify := some l } else d
  | .table t => if key = "otel" then { d with otel := some t } else d

/-- `document.remove(key)`. -/
def remove (d : Document) (key : String) : Document :=
  if key = "notify" then { d with notify := none } else if key = "otel" then { d with otel := none } else d

/-- The table under a key, edited. -/
def edit (d : Document) (key : String) (f : Table → Table) : Document :=
  if key = "otel" then { d with otel := d.otel.map f } else d

end Document

namespace Item

/-- `Item::as_value`. -/
def asValue : Item → Option TomlValue
  | .line l =>
    some (if l.val = "false".toList then .boolean false
      else if l.val = "true".toList then .boolean true
      else .other (String.ofList l.val))
  | .table _ => none

/-- `item.as_table_like().is_some()`. -/
def isTableLike : Item → Bool
  | .line _ => false
  | .table _ => true

/-- `table.get(key)`. -/
def entry (item : Item) (key : String) : Option Item :=
  match item with
  | .line _ => none
  | .table t => (t.get key).map .line

/-- `Item::to_string`. -/
def text : Item → String
  | .line l => String.ofList l.val
  | .table t => String.ofList t.text

/-- The line of a value. -/
def asLine : Item → Option Line
  | .line l => some l
  | .table _ => none

end Item

/-- The editor. -/
def editor : TomlEdit where
  Document := Document
  Item := Item
  new := {}
  parse text :=
    match readDocument text.toList with
    | some d => .ok d
    | none => .error "not a plain document"
  toText d := String.ofList d.text
  get := Document.get
  set := Document.set
  remove := Document.remove
  asValue := Item.asValue
  isTableLike := Item.isTableLike
  entry := Item.entry
  itemText := Item.text
  value v := .line (lineOf v)
  valueText v := String.ofList (print v)
  table := .table {}
  insertIn d key inner item := d.edit key fun t => (item.asLine.map fun l => t.put inner (some l)).getD t
  removeIn d key inner := d.edit key fun t => t.put inner none
  isEmptyIn d key := key = "otel" && d.otel.any Table.isEmpty

theorem tableLikeAt_edit (d : Document) (key : String) (f : Table → Table) (other : String) :
    editor.tableLikeAt (d.edit key f) other = editor.tableLikeAt d other := by
  unfold TomlEdit.tableLikeAt editor Document.edit
  by_cases hk : key = "otel"
  · cases ho : d.otel with
    | none => simp [hk, Document.get, ho]
    | some t =>
      by_cases hn : other = "notify"
      · simp [hk, Document.get, hn]
      · by_cases hot : other = "otel"
        · simp [hk, Document.get, ho, hot, Item.isTableLike]
        · simp [Document.get, hn, hot]
  · simp [hk]

/-- **The plain editor is what the manager relies on.** -/
theorem lawful : editor.Lawful where
  parse_empty := rfl
  reparse d := by
    have hread : readDocument (String.ofList (Document.text d)).toList = some d := by
      rw [String.toList_ofList]
      exact readDocument_text d
    refine ⟨d, ?_, fun _ => rfl⟩
    simp only [editor, hread]
  tableLikeAt_set_table d := by simp [TomlEdit.tableLikeAt, editor, Document.set, Document.get, Item.isTableLike]
  get_set_of_ne d key other item h := by
    cases item with
    | line l =>
      by_cases hk : key = "notify"
      · subst hk
        simp [editor, Document.set, Document.get, Ne.symm h]
      · simp [editor, Document.set, hk]
    | table t =>
      by_cases hk : key = "otel"
      · subst hk
        simp [editor, Document.set, Document.get, Ne.symm h]
      · simp [editor, Document.set, hk]
  tableLikeAt_insertIn d key inner item other := tableLikeAt_edit d key _ other

/-! ### The manager's values over a comment -/

variable (comment : { c : List Char // IsComment c }) (managed : ManagedValues)

/-- A document that is a comment, with the manager's values. -/
def withManaged : Document where
  notify := some (lineOf managed.notify)
  otel := some ⟨some (lineOf managed.exporter), some (lineOf (.boolean false)), some (lineOf (.string "local"))⟩
  comment := comment

/-- The text of the manager's values. -/
def managedText : List Char :=
  entryText "notify = ".toList (some (lineOf managed.notify)) ++ ("\n[otel]\n".toList ++
    Table.text ⟨some (lineOf managed.exporter), some (lineOf (.boolean false)), some (lineOf (.string "local"))⟩)

theorem text_withManaged : (withManaged comment managed).text = managedText managed ++ comment.val := by
  simp [withManaged, Document.text, managedText, header]

theorem parseDocument_comment :
    parseDocument editor (intoBytes (String.ofList comment.val)) = .ok { comment := comment } := by
  have hread : readDocument comment.val = some { comment := comment } := readDocument_text { comment := comment }
  simp only [parseDocument, fromUtf8_intoBytes]
  by_cases he : (String.ofList comment.val).isEmpty = true
  · have hnil : comment = ⟨[], trivial⟩ := by
      rw [String.isEmpty_iff, String.ofList_eq_empty_iff] at he
      exact Subtype.ext he
    subst hnil
    simp only [he, if_true]
    rfl
  · simp only [he, Bool.false_eq_true, if_false, editor, String.toList_ofList, hread]

theorem ensureNoManagedConflict_comment :
    ensureNoManagedConflict editor { comment := comment } managed = .ok () := rfl

theorem takesNotify_comment : (editor.get { comment := comment } "notify").all (notifyMatches editor · managed) = true := rfl

theorem patchManagedValues_comment :
    patchManagedValues editor { comment := comment } managed true = some (withManaged comment managed) := by
  simp [patchManagedValues, managedEntries, editor, TomlEdit.tableLikeAt, Document.get, Document.set, Document.edit,
    Item.isTableLike, Item.entry, Item.asLine, Table.get, Table.put, withManaged]

end AgentObservability.CodexConfig.PlainToml
