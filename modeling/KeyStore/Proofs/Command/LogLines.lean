import KeyStore.Command.Run
import KeyStore.Proofs.Files.StoreEntries

/-!
# Lines of the log

How events and reports are cut into lines. An event takes one line unless a text from outside that
it shows as it is holds a line feed. A report about a key holds no line that looks like an entry of
the log.
-/

namespace KeyStore

open Log

theorem cutFields_snd_eq_nil_iff {separator : Char} {text : List Char} :
    (cutFields separator text).2 = [] ↔ separator ∉ text := by
  induction text with
  | nil => simp [cutFields]
  | cons char rest inductionHypothesis =>
      rw [cutFields]
      by_cases same : char = separator
      · simp [same]
      · simp [same, inductionHypothesis, Ne.symm same]

section Texts

variable {char : Char} {wording text : String}

theorem mem_toList_behind (absent : char ∉ wording.toList) :
    char ∈ (wording ++ text).toList ↔ char ∈ text.toList := by
  rw [String.toList_append, List.mem_append]
  exact or_iff_right absent

theorem mem_toList_before (absent : char ∉ wording.toList) :
    char ∈ (text ++ wording).toList ↔ char ∈ text.toList := by
  rw [String.toList_append, List.mem_append]
  exact or_iff_left absent

end Texts

theorem lineFeed_notMem_word (number : UInt32) : '\n' ∉ (toString number).toList := by
  intro member
  have digits : (toString number).toList = Nat.toDigits 10 number.toNat := String.toList_ofList
  rw [digits] at member
  have digit := isDigit_of_mem_version member
  contradiction

theorem lineFeed_notMem_hexDigits (number : Nat) : '\n' ∉ Quoted.hexDigits number := by
  have digit : ∀ value < 16, '\n' ≠ Nat.digitChar value := by
    decide
  rw [Quoted.hexDigits]
  induction number using Nat.strongRecOn with
  | ind number inductionHypothesis =>
      by_cases small : number < 16
      · rw [Nat.toDigits_of_lt_base small, List.mem_singleton]
        exact digit number small
      · rw [Nat.toDigits_of_base_le (by decide) (Nat.le_of_not_lt small), List.mem_append,
          List.mem_singleton, not_or]
        exact ⟨inductionHypothesis _ (by omega), digit _ (Nat.mod_lt _ (by decide))⟩

theorem Quoted.lineFeed_notMem_encodeChar (char : Char) : '\n' ∉ encodeChar char := by
  unfold encodeChar
  repeat' split
  case isFalse.isFalse.isFalse.isFalse.isFalse.isFalse.isTrue =>
    simp [lineFeed_notMem_hexDigits]
  case isFalse.isFalse.isFalse.isFalse.isFalse.isFalse.isFalse isFeed _ =>
    exact fun member => isFeed (List.mem_singleton.mp member).symm
  all_goals decide

theorem Quoted.lineFeed_notMem_encode (text : String) : '\n' ∉ (encode text).toList := by
  rw [encode, String.toList_ofList]
  simp [lineFeed_notMem_encodeChar]

namespace Log.Event

/-- The text from outside that an event shows as it is. The tag of a block is quoted. -/
def shown : Event → String
  | .readingFile path | .decodedBlock path _ | .importedKey _ path _ => path
  | .openingKey _ _ => ""
  | .rejectedEnvelope _ (.unsupported _ value) => value
  | .rejectedEnvelope _ fault => fault.message

theorem lineFeed_mem_message_of_unsupported (field : AlgorithmField) (value : String) :
    '\n' ∈ (StoreFault.unsupported field value).message.toList ↔ '\n' ∈ value.toList := by
  have wording : '\n' ∉ ("unsupported " ++ field.name ++ " '").toList := by
    cases field <;> decide +kernel
  show '\n' ∈ ("unsupported " ++ field.name ++ " '" ++ value ++ "' in key envelope").toList ↔ _
  rw [mem_toList_before (by decide +kernel), mem_toList_behind wording]

theorem lineFeed_mem_message_iff (event : Event) :
    '\n' ∈ event.message.toList ↔ '\n' ∈ event.shown.toList := by
  cases event with
  | readingFile path =>
      show '\n' ∈ ("reading key store entry path=" ++ path).toList ↔ '\n' ∈ path.toList
      exact mem_toList_behind (by decide +kernel)
  | openingKey version iterations =>
      have first : '\n' ∉ ("opening password protected key version=" ++ toString version ++
          " iterations=").toList := by
        rw [mem_toList_before (by decide +kernel), mem_toList_behind (by decide +kernel)]
        exact lineFeed_notMem_word version
      refine (mem_toList_behind first).trans ?_
      exact iff_of_false (lineFeed_notMem_word iterations) List.not_mem_nil
  | rejectedEnvelope version fault =>
      have first : '\n' ∉ ("rejected key envelope version=" ++ toString version ++
          " error=").toList := by
        rw [mem_toList_before (by decide +kernel), mem_toList_behind (by decide +kernel)]
        exact lineFeed_notMem_word version
      refine (mem_toList_behind first).trans ?_
      cases fault with
      | unsupported field value => exact lineFeed_mem_message_of_unsupported field value
      | _ => rfl
  | decodedBlock path tag =>
      show '\n' ∈ ("decoded PEM block path=" ++ path ++ " tag=" ++ Quoted.encode tag).toList ↔
        '\n' ∈ path.toList
      rw [mem_toList_before (Quoted.lineFeed_notMem_encode tag),
        mem_toList_before (by decide +kernel), mem_toList_behind (by decide +kernel)]
  | importedKey source path purpose =>
      have first : '\n' ∉ ("imported " ++ source.phrase ++ " path=").toList := by
        cases source <;> decide +kernel
      have last : '\n' ∉ (purposePhrase purpose).toList := by
        cases purpose <;> decide +kernel
      show '\n' ∈ ("imported " ++ source.phrase ++ " path=" ++ path ++ " purpose=" ++
        purposePhrase purpose).toList ↔ '\n' ∈ path.toList
      rw [mem_toList_before last, mem_toList_before (by decide +kernel), mem_toList_behind first]

theorem lineFeed_mem_text_iff (event : Event) :
    '\n' ∈ event.text.toList ↔ '\n' ∈ event.shown.toList := by
  have level : '\n' ∉ (event.level.name ++ " ").toList := by
    cases event.level <;> decide +kernel
  exact (mem_toList_behind level).trans event.lineFeed_mem_message_iff

end Log.Event

namespace Outcome

theorem further_lines_eq_nil_iff {event : Event} :
    (eventLines event).2 = [] ↔ '\n' ∉ event.shown.toList := by
  rw [eventLines, cutFields_snd_eq_nil_iff, Event.lineFeed_mem_text_iff]

/-- Events of one line each leave nothing but the report. -/
theorem errorText_of_oneLine {outcome : Outcome}
    (oneLine : ∀ event ∈ outcome.events, '\n' ∉ event.shown.toList) :
    outcome.errorText = String.ofList
      (List.intercalate ['\n']
        (outcome.reportLines.filter fun line => (behindStamp? line).isNone)) := by
  have nothing : outcome.events.flatMap (fun event => (eventLines event).2) = [] := by
    rw [List.flatMap_eq_nil_iff]
    exact fun event member => further_lines_eq_nil_iff.mpr (oneLine event member)
  rw [errorText, nothing, List.nil_append]

/-- An entry of the log begins with a digit. -/
theorem behindStamp?_cons {char : Char} (notDigit : char.isDigit = false) (rest : List Char) :
    behindStamp? (char :: rest) = none := by
  have other : char ≠ '0' := by
    rintro rfl
    contradiction
  have form : stampForm = '0' :: stampForm.tail := by
    decide +kernel
  rw [behindStamp?, form, behindForm?, if_neg]
  simp [other, notDigit]

/-- The log of an outcome whose report holds no line like an entry. -/
theorem log_congr {left right : Outcome} (sameEvents : left.events = right.events)
    (sameStamps : left.reportLines.filterMap behindStamp? =
      right.reportLines.filterMap behindStamp?) :
    left.log = right.log := by
  rw [log, log, sameEvents, sameStamps]

end Outcome

/-- Nothing in the report of a plaintext that is no text looks like an entry of the log. -/
theorem stamps_report_of_notText (version : UInt32) :
    (splitFields '\n' (Failure.key version .notText).report.toList).filterMap
      Outcome.behindStamp? = [] := by
  have oneLine : '\n' ∉ ("Error: " ++ ("failed to read key version " ++
      toString version)).toList := by
    rw [mem_toList_behind (by decide +kernel), mem_toList_behind (by decide +kernel)]
    exact lineFeed_notMem_word version
  -- Behind the first line the report is the same for every version.
  have report : (Failure.key version .notText).report.toList =
      ("Error: " ++ ("failed to read key version " ++ toString version)).toList ++ '\n' ::
        "\nCaused by:\n    decryption failed: decrypted key is not valid UTF-8\n".toList := by
    show (String.join ((("Error: " ++ ("failed to read key version " ++ toString version)) ::
      ["", "Caused by:", indentLines "    " "    " StoreFault.notText.message]).map
        (· ++ "\n"))).toList = _
    rw [String.toList_join, List.map_cons, List.flatMap_cons, String.toList_append,
      List.append_assoc]
    exact congrArg _ (by decide +kernel)
  have first : Outcome.behindStamp?
      ("Error: " ++ ("failed to read key version " ++ toString version)).toList = none := by
    rw [String.toList_append]
    exact Outcome.behindStamp?_cons (by decide) _
  rw [report, splitFields_append oneLine, List.filterMap_cons_none first]
  decide +kernel

end KeyStore
