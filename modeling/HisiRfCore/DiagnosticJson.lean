import HisiRfCore.ErrorBuilding
import HisiRfCore.JsonReader
import HisiRfCore.JsonWriter

/-!
# The written diagnostic and its reading

Every public error is written as one object of the JSON grammar. Parsing the object
and reading its members gives back what the error holds.
-/

namespace HisiRfCore.DiagnosticJson

open WifiTypes Diagnostics ErrorBuilding JsonGrammar JsonReader JsonWriter

section Strings

/-- Each hexadecimal digit is read as itself. -/
theorem hexValue_digitChar : ∀ k < 16, hexValue k.digitChar = some k := by decide

/-- A control character is written with two leading zeros. -/
theorem hexadecimal_byte {n : ℕ} (hn : n < 256) :
    hexadecimal n = ['0', '0', (n / 16).digitChar, (n % 16).digitChar] := by
  by_cases hsmall : n < 16
  · rw [hexadecimal, Nat.toDigits_of_lt_base hsmall, Nat.div_eq_of_lt hsmall, Nat.mod_eq_of_lt hsmall]
    rfl
  · rw [hexadecimal, Nat.toDigits_of_base_le (by decide) (by omega),
      Nat.toDigits_of_lt_base (by omega)]
    rfl

/-- The four digits of a control character give its code point. -/
theorem control_point {c : Char} (hc : isControl c = true) :
    StringChar ("\\u".toList ++ hexadecimal c.toNat) c.toNat := by
  have hbyte : c.toNat < 256 := by
    simp only [isControl, Bool.or_eq_true, Bool.and_eq_true, decide_eq_true_eq] at hc
    omega
  have hpoint : hexPoint '0' '0' (c.toNat / 16).digitChar (c.toNat % 16).digitChar =
      some c.toNat := by
    have hzero : hexValue '0' = some 0 := rfl
    rw [hexPoint, hzero, hexValue_digitChar _ (by omega), hexValue_digitChar _ (by omega)]
    refine congrArg some ?_
    omega
  rw [hexadecimal_byte hbyte]
  exact .unicode hpoint

/-- Whatever is written for a character stands for that character. -/
theorem escaped_char (c : Char) : StringChar (escaped c) c.toNat := by
  rw [escaped]
  split
  · rename_i hc
    subst hc
    exact .short rfl
  split
  · rename_i hc
    subst hc
    exact .short rfl
  split
  · rename_i hc
    subst hc
    exact .short rfl
  split
  · rename_i hc
    subst hc
    exact .short rfl
  split
  · rename_i hc
    subst hc
    exact .short rfl
  split
  · rename_i hcontrol
    exact control_point hcontrol
  · rename_i hquote hslash _ _ _ hcontrol
    refine .unescaped ⟨?_, hquote, hslash⟩
    simp only [isControl, Bool.or_eq_true, decide_eq_true_eq, not_or] at hcontrol
    omega

/-- By induction on the string, its text stands for its characters. -/
theorem escaped_characters (t : List Char) :
    Characters (t.flatMap escaped) (pointsOf t) := by
  induction t with
  | nil => exact .nil
  | cons c t ih =>
    rw [List.flatMap_cons]
    exact .cons (escaped_char c) ih

/-- The loop over the characters appends their texts. -/
theorem writeJsonString_eq (output : Text) (value : String) :
    writeJsonString output value = output ++ quoted (value.toList.flatMap escaped) := by
  have hloop : ∀ (t : List Char) (output : Text),
      t.foldl (fun output character => output ++ escaped character) output =
        output ++ t.flatMap escaped := by
    intro t
    induction t with
    | nil => exact fun output => (List.append_nil output).symm
    | cons c t ih =>
      intro output
      rw [List.foldl_cons, ih, List.flatMap_cons, List.append_assoc]
  rw [writeJsonString, hloop, quoted, List.append_assoc, List.append_assoc]
  rfl

/-- A revision as it is written. -/
def writtenString (value : String) : Written where
  text := quoted (value.toList.flatMap escaped)
  value := .string (pointsOf value.toList)
  derived := .string (.mk (escaped_characters value.toList))

end Strings

section Writing

theorem code_plain (code : DiagnosticCode) : Plain code.asStr.toList := by
  cases code <;> decide

theorem stage_plain (stage : DiagnosticStage) : Plain stage.asStr.toList := by
  cases stage <;> decide

theorem action_plain (action : RecoveryAction) : Plain action.asStr.toList := by
  cases action <;> decide

theorem kind_plain (kind : DiagnosticTraceKind) : Plain kind.asStr.toList := by
  cases kind <;> decide

theorem docs_plain (d : Diagnostic) : Plain d.docsAnchor.toList := by
  rw [Diagnostic.docsAnchor]
  cases d.code <;> decide

/-- A trace entry as it is written. -/
def writtenEntry (entry : DiagnosticTraceEntry) : Written := .object [
  ⟨"kind".toList, by decide, .plain entry.kind.asStr.toList (kind_plain entry.kind)⟩,
  ⟨"value".toList, by decide, .number entry.value.toNat⟩]

/-- A value that may be absent as it is written. -/
def writtenOption {α : Type} (f : α → Written) : Option α → Written
  | some value => f value
  | none => .null

/-- The members of a written diagnostic whose trace retains the entries. -/
def members (d : Diagnostic) (entries : List DiagnosticTraceEntry) : List Member := [
  ⟨"schema".toList, by decide, .plain diagnosticSchema.toList (by decide)⟩,
  ⟨"code".toList, by decide, .plain d.code.asStr.toList (code_plain d.code)⟩,
  ⟨"stage".toList, by decide, .plain d.stage.asStr.toList (stage_plain d.stage)⟩,
  ⟨"action".toList, by decide, .plain d.action.asStr.toList (action_plain d.action)⟩,
  ⟨"backend_code".toList, by decide, writtenOption (fun code => .number code.toNat) d.backendCode⟩,
  ⟨"profile_revision".toList, by decide, writtenOption writtenString d.profileRevision⟩,
  ⟨"trace".toList, by decide, .array (entries.map writtenEntry)⟩,
  ⟨"trace_truncated".toList, by decide, .boolean d.trace.isTruncated⟩,
  ⟨"docs".toList, by decide, .plain d.docsAnchor.toList (docs_plain d)⟩]

variable {trace : DiagnosticTrace} {entries : List DiagnosticTraceEntry}

/-- An entry that is there is written after its separator. -/
theorem writeEntry_eq {index : ℕ} {entry : DiagnosticTraceEntry} (output : Text)
    (h : trace.get index = some (some entry)) :
    writeEntry trace output index =
      some ((if index ≠ 0 then output ++ [','] else output) ++ (writtenEntry entry).text) := by
  rw [writeEntry, h]
  simp [writtenEntry, Written.object, Member.text, quoted, Written.plain, Written.number,
    writeNumber, decimal]

/-- By induction on the count, the loop writes the first entries with commas between them. -/
theorem writeEntries_eq (output : Text) (count : ℕ) (hcount : count ≤ entries.length)
    (h : ∀ index < count, trace.get index = some entries[index]?) :
    (List.range count).foldlM (writeEntry trace) output =
      some (output ++ commas ((entries.take count).map fun entry => (writtenEntry entry).text)) := by
  induction count with
  | zero => exact congrArg some (List.append_nil output).symm
  | succ count ih =>
    have hfirst := ih (by omega) fun index hindex => h index (by omega)
    have hbound : count < entries.length := by omega
    have hentry : trace.get count = some (some entries[count]) := by
      rw [h count (by omega), List.getElem?_eq_getElem hbound]
    rw [List.range_succ, List.foldlM_append, hfirst, List.take_succ_eq_append_getElem hbound,
      List.map_append, List.map_singleton]
    change (writeEntry trace _ count).bind some = _
    rw [writeEntry_eq _ hentry, Option.bind_some]
    cases count with
    | zero => rw [if_neg (by decide), List.take_zero, List.map_nil, List.nil_append, commas_singleton,
        commas_nil, List.append_nil]
    | succ count =>
      have hne : (entries.take (count + 1)).map (fun entry => (writtenEntry entry).text) ≠ [] := by
        refine List.ne_nil_of_length_pos ?_
        rw [List.length_map, List.length_take]
        omega
      rw [commas_concat hne, if_pos (by omega), List.append_assoc, List.append_assoc]
      rfl

/-- The writer appends the text of the members to what the sink holds. -/
theorem writeJson_eq (d : Diagnostic) (output : Text) (hlength : d.trace.length = entries.length)
    (h : ∀ index < entries.length, d.trace.get index = some entries[index]?) :
    d.writeJson output = some (output ++ (Written.object (members d entries)).text) := by
  obtain ⟨code, stage, action, backendCode, profileRevision, trace⟩ := d
  have hentries : ∀ output, (List.range entries.length).foldlM (writeEntry trace) output =
      some (output ++ commas (entries.map fun entry => (writtenEntry entry).text)) := by
    intro output
    have hloop := writeEntries_eq output entries.length le_rfl h
    rwa [List.take_length] at hloop
  have htruth : (if trace.isTruncated then "true" else "false").toList = truth trace.isTruncated := by
    cases trace.isTruncated <;> rfl
  rw [Diagnostic.writeJson, hlength]
  cases backendCode <;> cases profileRevision <;>
    simp [hentries, htruth, members, Written.object, Member.text, quoted, Written.plain,
      Written.number, Written.null, Written.array, Written.boolean, writtenOption, writeNumber,
      decimal, writeJsonString_eq, writtenString, Function.comp_def]

end Writing

section Reading

/-- Every code, stage, action and trace kind is found by its name. -/
def named {α : Type} (all : List α) (asStr : α → String) (t : List Char) : Option α :=
  all.find? fun value => (asStr value).toList = t

/-- Every identity of a failure. -/
def codes : List DiagnosticCode := [.alreadyInitialized, .backendInitialize, .backendBusy,
  .operationTimeout, .backendTimeout, .operationCancelled, .resourceUnavailable,
  .unsupportedSecurity, .connectionFailed, .backendOther, .protocol]

/-- Every stage. -/
def stages : List DiagnosticStage := [.initialise, .controlPlane, .connect, .scan, .authenticate,
  .associate, .sae, .eapol, .pmf, .disconnect, .runtime, .operation, .backend]

/-- Every action. -/
def actions : List RecoveryAction := [.useExistingController, .reinitialise, .waitAndRetry,
  .retryOperation, .provideResources, .selectSupportedSecurity, .inspectNetworkAndRetry,
  .inspectBackendCode, .recreateController]

/-- Every kind of trace value. -/
def kinds : List DiagnosticTraceKind := [.backendStatus, .vendorStatus, .ieeeStatus, .hostapStatus,
  .disconnectReason, .supplicantContext, .driverContext, .runtimeCode, .resourceRequired,
  .resourceAvailable, .resourceOwner, .largestContiguous]

/-- No two identities share a name, so each is found by its own. -/
theorem named_code (code : DiagnosticCode) :
    named codes DiagnosticCode.asStr code.asStr.toList = some code := by
  cases code <;> decide

theorem named_stage (stage : DiagnosticStage) :
    named stages DiagnosticStage.asStr stage.asStr.toList = some stage := by
  cases stage <;> decide

theorem named_action (action : RecoveryAction) :
    named actions RecoveryAction.asStr action.asStr.toList = some action := by
  cases action <;> decide

theorem named_kind (kind : DiagnosticTraceKind) :
    named kinds DiagnosticTraceKind.asStr kind.asStr.toList = some kind := by
  cases kind <;> decide

/-- Contents of a written diagnostic. -/
structure Report where
  /-- Stable error identity. -/
  code : DiagnosticCode
  /-- Stage of the failure. -/
  stage : DiagnosticStage
  /-- Recommended next action. -/
  action : RecoveryAction
  /-- Backend code, if any. -/
  backendCode : Option UInt32
  /-- Revision, if any. -/
  profileRevision : Option String
  /-- Retained trace entries in order. -/
  trace : List DiagnosticTraceEntry
  /-- Whether entries were dropped. -/
  truncated : Bool
  deriving DecidableEq

/-- Number of one machine word. -/
def word (value : Json) : Option UInt32 := do
  let n ← natural value
  if n < 2 ^ 32 then some (UInt32.ofNat n) else none

/-- Read one trace entry. -/
def readEntry (value : Json) : Option DiagnosticTraceEntry := do
  let kind ← named kinds DiagnosticTraceKind.asStr (← text (← member "kind".toList value))
  let value ← word (← member "value".toList value)
  pure ⟨kind, value⟩

/-- Read the members of a diagnostic. -/
def readReport (value : Json) : Option Report := do
  let code ← named codes DiagnosticCode.asStr (← text (← member "code".toList value))
  let stage ← named stages DiagnosticStage.asStr (← text (← member "stage".toList value))
  let action ← named actions RecoveryAction.asStr (← text (← member "action".toList value))
  let backendCode ← nullable word (← member "backend_code".toList value)
  let revision ← nullable text (← member "profile_revision".toList value)
  let trace ← list readEntry (← member "trace".toList value)
  let truncated ← boolean (← member "trace_truncated".toList value)
  pure ⟨code, stage, action, backendCode, revision.map String.ofList, trace, truncated⟩

theorem word_number (value : UInt32) : word (.number (decimal value.toNat)) = some value := by
  have hbound : value.toNat < 2 ^ 32 := value.toNat_lt
  rw [word, natural_decimal]
  change (if _ then _ else none) = _
  rw [if_pos hbound, UInt32.ofNat_toNat]

/-- A written entry is read back. -/
theorem readEntry_written (entry : DiagnosticTraceEntry) :
    readEntry (writtenEntry entry).value = some entry := by
  have hkind : member "kind".toList (writtenEntry entry).value =
      some (.string (pointsOf entry.kind.asStr.toList)) := rfl
  have hvalue : member "value".toList (writtenEntry entry).value =
      some (.number (decimal entry.value.toNat)) := rfl
  simp only [readEntry, hkind, hvalue, Option.bind_eq_bind, Option.bind_some, text_string,
    named_kind, word_number, Option.pure_def]

/-- Written entries are read back in their order. -/
theorem readEntries_written (entries : List DiagnosticTraceEntry) :
    list readEntry (Written.array (entries.map writtenEntry)).value = some entries := by
  change ((entries.map writtenEntry).map Written.value).mapM readEntry = some entries
  induction entries with
  | nil => rfl
  | cons entry entries ih =>
    rw [List.map_cons, List.map_cons, List.mapM_cons, readEntry_written, ih]
    rfl

theorem nullable_number (code : Option UInt32) :
    nullable word (writtenOption (fun code => .number code.toNat) code).value = some code := by
  cases code with
  | none => rfl
  | some code => exact congrArg (Option.map some) (word_number code)

theorem nullable_string (revision : Option String) :
    nullable text (writtenOption writtenString revision).value =
      some (revision.map String.toList) := by
  cases revision with
  | none => rfl
  | some revision => exact congrArg (Option.map some) (text_string revision.toList)

/-- The members of a written diagnostic are read back. -/
theorem readReport_written (d : Diagnostic) (entries : List DiagnosticTraceEntry) :
    readReport (Written.object (members d entries)).value =
      some ⟨d.code, d.stage, d.action, d.backendCode, d.profileRevision, entries,
        d.trace.isTruncated⟩ := by
  have hcode : member "code".toList (Written.object (members d entries)).value =
      some (.string (pointsOf d.code.asStr.toList)) := rfl
  have hstage : member "stage".toList (Written.object (members d entries)).value =
      some (.string (pointsOf d.stage.asStr.toList)) := rfl
  have haction : member "action".toList (Written.object (members d entries)).value =
      some (.string (pointsOf d.action.asStr.toList)) := rfl
  have hbackend : member "backend_code".toList (Written.object (members d entries)).value =
      some (writtenOption (fun code => .number code.toNat) d.backendCode).value := rfl
  have hrevision : member "profile_revision".toList (Written.object (members d entries)).value =
      some (writtenOption writtenString d.profileRevision).value := rfl
  have htrace : member "trace".toList (Written.object (members d entries)).value =
      some (Written.array (entries.map writtenEntry)).value := rfl
  have htruncated : member "trace_truncated".toList (Written.object (members d entries)).value =
      some (.boolean d.trace.isTruncated) := rfl
  have hstring : (d.profileRevision.map String.toList).map String.ofList = d.profileRevision := by
    rw [Option.map_map]
    cases d.profileRevision with
    | none => rfl
    | some revision => exact congrArg some String.ofList_toList
  simp only [readReport, hcode, hstage, haction, hbackend, hrevision, htrace, htruncated,
    Option.bind_eq_bind, Option.bind_some, text_string, named_code, named_stage, named_action,
    nullable_number, nullable_string, readEntries_written, boolean, hstring, Option.pure_def]

/-- The members have different names. -/
theorem names_nodup (d : Diagnostic) (entries : List DiagnosticTraceEntry) :
    ((members d entries).map fun m => m.entry.1).Nodup := by
  change (["schema", "code", "stage", "action", "backend_code", "profile_revision", "trace",
    "trace_truncated", "docs"].map fun name => pointsOf name.toList).Nodup
  decide +kernel

end Reading

section Origins

/-- Where a public error comes from. -/
inductive ErrorOrigin
  | alreadyInitialized
  | protocol
  | backend (cls : BackendErrorClass) (code : UInt32) (steps : List BuilderStep)

/-- The error of an origin. -/
def ErrorOrigin.error : ErrorOrigin → Error
  | .alreadyInitialized => .alreadyInitialized
  | .protocol => .protocol
  | .backend cls code steps => .backend (built cls code steps)

/-- What the calls of an origin tell, with the code and action of its diagnostic. -/
def ErrorOrigin.report (origin : ErrorOrigin) : Report :=
  let code := origin.error.diagnostic.code
  let action := origin.error.diagnostic.action
  match origin with
  | .alreadyInitialized => ⟨code, .controlPlane, action, none, none, [], false⟩
  | .protocol => ⟨code, .controlPlane, action, none, none, [], false⟩
  | .backend cls backendCode steps =>
    let entries := steps.filterMap BuilderStep.entry
    ⟨code,
      (steps.filterMap BuilderStep.stage).getLast?.getD (BackendError.new cls backendCode).stage,
      action, some backendCode, (steps.filterMap BuilderStep.revision).getLast?, entries.take 4,
      decide (4 < entries.length)⟩

/-- The trace of a public error retains what its calls added. -/
theorem origin_retains (origin : ErrorOrigin) :
    ∃ added, Retains origin.error.diagnostic.trace added ∧
      origin.report = ⟨origin.error.diagnostic.code, origin.error.diagnostic.stage,
        origin.error.diagnostic.action, origin.error.diagnostic.backendCode,
        origin.error.diagnostic.profileRevision, added.take diagnosticTraceCapacity,
        origin.error.diagnostic.trace.isTruncated⟩ := by
  cases origin with
  | alreadyInitialized => exact ⟨[], new_retains, rfl⟩
  | protocol => exact ⟨[], new_retains, rfl⟩
  | backend cls code steps =>
    have hbuilt := built_holds cls code steps
    refine ⟨steps.filterMap BuilderStep.entry, hbuilt.trace, ?_⟩
    change Report.mk _ _ _ _ _ _ _ = Report.mk _ (built cls code steps).stage _
      (some (built cls code steps).code) (built cls code steps).profileRevision _
      (built cls code steps).trace.truncated
    rw [hbuilt.stage, hbuilt.backendCode, hbuilt.revision, hbuilt.trace.truncated]

/-- Every public error is written as one object, and whoever parses it reads back the code, the
action, the last stage, the backend code, the last revision, the first entries and whether there
were more. -/
theorem written_report_recovered (origin : ErrorOrigin) :
    ∃ text members, (∀ output, origin.error.diagnostic.writeJson output = some (output ++ text)) ∧
      JsonText text (.object members) ∧ (members.map Prod.fst).Nodup ∧
      (∀ value, JsonText text value → readReport value = some origin.report) ∧
      (parse text).bind readReport = some origin.report := by
  obtain ⟨added, hretains, hreport⟩ := origin_retains origin
  have hlength : origin.error.diagnostic.trace.length =
      (added.take diagnosticTraceCapacity).length := by
    rw [hretains.length, List.length_take]
  have hentries : ∀ index < (added.take diagnosticTraceCapacity).length,
      origin.error.diagnostic.trace.get index =
        some (added.take diagnosticTraceCapacity)[index]? := by
    intro index hindex
    have hslot : index < diagnosticTraceCapacity := by
      rw [List.length_take] at hindex
      omega
    rw [hretains.get (by omega), List.getElem?_take_of_lt hslot]
  generalize added.take diagnosticTraceCapacity = entries at *
  have hread := readReport_written origin.error.diagnostic entries
  rw [← hreport] at hread
  have htext : JsonText (Written.object (members origin.error.diagnostic entries)).text
      (Written.object (members origin.error.diagnostic entries)).value := by
    have hmk := JsonText.mk space_nil
      (Written.object (members origin.error.diagnostic entries)).derived space_nil
    rwa [List.nil_append, List.append_nil] at hmk
  refine ⟨_, _, fun output => writeJson_eq _ output hlength hentries, htext, ?_, ?_, ?_⟩
  · rw [List.map_map]
    exact names_nodup _ _
  · intro value hvalue
    rw [text_unique hvalue htext]
    exact hread
  · rw [parse_text htext]
    exact hread

end Origins

end HisiRfCore.DiagnosticJson
