import KeyStore.Proofs.Command.CommandLines
import Mathlib.Data.List.TakeDrop
import Mathlib.Data.List.TakeWhile

/-!
# Rows of options

What a row of options is made of: options in their two spellings, one behind the other, up to the
first argument that is none. An option can be put between two others, or taken away, without a
change to what the others give.
-/

namespace KeyStore.Arguments

def Setting.name : Setting → String
  | .store => "store"
  | .passwordFile => "password-file"
  | .purpose => "purpose"

def Setting.option (setting : Setting) : String :=
  "--" ++ setting.name

/-- What an option chooses. -/
inductive Choice where
  | protection
  | setting (setting : Setting) (value : String)

/-- The spellings of an option. A value stands behind the option, or behind an equals sign. -/
inductive Choice.Writes : Choice → List String → Prop
  | protection : Writes .protection ["--pbe"]
  | detached {setting : Setting} {value : String} (plain : Argument.ofText value = .plain) :
      Writes (.setting setting value) [setting.option, value]
  | attached {setting : Setting} {value : String} :
      Writes (.setting setting value) [setting.option ++ "=" ++ value]

/-- What is given with one more option. No option is taken twice. -/
def Given.take? (given : Given) (level : Level) : Choice → Option Given
  | .protection =>
      if level.knows .isProtected ∧ given.isProtected = false then
        some { given with isProtected := true }
      else
        none
  | .setting setting value => given.put? level setting value

section Spellings

variable {text : String} {name : List Char} {setting : Setting}

theorem Setting.ofName?_name (setting : Setting) : ofName? setting.name.toList = some setting := by
  cases setting <;> rfl

theorem Setting.ofName?_eq_some_iff :
    Setting.ofName? name = some setting ↔ name = setting.name.toList := by
  constructor
  · intro known
    unfold ofName? at known
    split at known
    case isTrue same =>
      obtain rfl := Option.some.inj known
      exact same
    case isFalse =>
      split at known
      case isTrue same =>
        obtain rfl := Option.some.inj known
        exact same
      case isFalse =>
        split at known
        case isTrue same =>
          obtain rfl := Option.some.inj known
          exact same
        case isFalse =>
          contradiction
  · intro same
    rw [same]
    exact setting.ofName?_name

theorem Setting.equals_notMem_name (setting : Setting) : '=' ∉ setting.name.toList := by
  cases setting <;> decide +kernel

theorem Setting.toList_option (setting : Setting) :
    setting.option.toList = '-' :: '-' :: setting.name.toList := by
  rw [option, String.toList_append]
  rfl

theorem ne_equals_of_notMem (noEquals : '=' ∉ name) :
    ∀ char ∈ name, decide (char ≠ '=') = true := by
  intro char member
  apply decide_eq_true
  rintro rfl
  exact noEquals member

theorem Argument.ofNamed_of_notMem (noEquals : '=' ∉ name) : ofNamed name = .named name none := by
  have same := ne_equals_of_notMem noEquals
  have front := List.takeWhile_eq_self_iff.mpr same
  have behind := List.dropWhile_eq_nil_iff.mpr same
  simp only [ofNamed, List.span_eq_takeWhile_dropWhile, front, behind]

theorem Argument.ofNamed_append (noEquals : '=' ∉ name) (value : List Char) :
    ofNamed (name ++ '=' :: value) = .named name (some (String.ofList value)) := by
  have same := ne_equals_of_notMem noEquals
  simp only [ofNamed, List.span_eq_takeWhile_dropWhile, List.takeWhile_append_of_pos same,
    List.dropWhile_append_of_pos same]
  simp

theorem Argument.ofText_of_hyphens {rest : List Char} (written : text.toList = '-' :: '-' :: rest)
    (filled : rest ≠ []) : ofText text = ofNamed rest := by
  obtain ⟨char, others, rfl⟩ := List.exists_cons_of_ne_nil filled
  rw [ofText, written]
  rfl

theorem Setting.name_ne_nil (setting : Setting) : setting.name.toList ≠ [] := by
  cases setting <;> decide +kernel

theorem Argument.ofText_option (setting : Setting) :
    ofText setting.option = .named setting.name.toList none := by
  rw [ofText_of_hyphens setting.toList_option setting.name_ne_nil,
    ofNamed_of_notMem setting.equals_notMem_name]

theorem Argument.ofText_attached (setting : Setting) (value : String) :
    ofText (setting.option ++ "=" ++ value) = .named setting.name.toList (some value) := by
  have written : (setting.option ++ "=" ++ value).toList =
      '-' :: '-' :: (setting.name.toList ++ '=' :: value.toList) := by
    rw [String.toList_append, String.toList_append, setting.toList_option]
    simp
  rw [ofText_of_hyphens written (by simp), ofNamed_append setting.equals_notMem_name,
    String.ofList_toList]

theorem Argument.eq_mark_of_ofText (isMark : ofText text = .endOfOptions) : text = "--" := by
  unfold ofText at isMark
  split at isMark
  case h_1 written =>
    exact String.toList_inj.mp written
  case h_2 rest _ written =>
    unfold ofNamed at isMark
    split at isMark <;> contradiction
  all_goals contradiction

theorem Argument.toList_of_ofText_named {value : Option String}
    (isNamed : ofText text = .named name value) :
    text.toList = '-' :: '-' :: (name ++ (value.map ('=' :: ·.toList)).getD []) := by
  unfold ofText at isNamed
  split at isNamed
  case h_2 rest _ written =>
    have cut : rest.takeWhile (· ≠ '=') ++ rest.dropWhile (· ≠ '=') = rest :=
      List.takeWhile_append_dropWhile
    have first := @List.head_dropWhile_not _ (· ≠ '=') rest
    rw [written]
    unfold ofNamed at isNamed
    rw [List.span_eq_takeWhile_dropWhile] at isNamed
    generalize rest.takeWhile (· ≠ '=') = front at cut isNamed
    generalize rest.dropWhile (· ≠ '=') = behind at cut first isNamed
    cases behind with
    | nil =>
        obtain ⟨rfl, rfl⟩ := Argument.named.inj isNamed
        show '-' :: '-' :: rest = '-' :: '-' :: (front ++ [])
        rw [cut]
    | cons equals behind =>
        obtain ⟨rfl, rfl⟩ := Argument.named.inj isNamed
        have isEquals : equals = '=' := of_not_not (of_decide_eq_false (first (by simp)))
        show '-' :: '-' :: rest = '-' :: '-' :: (front ++ '=' :: (String.ofList behind).toList)
        rw [String.toList_ofList, ← isEquals, cut]
  all_goals contradiction

theorem Argument.plain_of_head? (noHyphen : text.toList.head? ≠ some '-') :
    ofText text = .plain := by
  unfold ofText
  split
  case h_1 written => exact absurd (by rw [written]; rfl) noHyphen
  case h_2 written => exact absurd (by rw [written]; rfl) noHyphen
  case h_3 written => exact absurd (by rw [written]; rfl) noHyphen
  case h_4 => rfl

/-- A text that is read as the option of a setting is spelled like that option. -/
theorem Argument.eq_option_of_ofText (isNamed : ofText text = .named setting.name.toList none) :
    text = setting.option := by
  apply String.toList_inj.mp
  rw [toList_of_ofText_named isNamed, setting.toList_option]
  simp

theorem Argument.eq_attached_of_ofText {value : String}
    (isNamed : ofText text = .named setting.name.toList (some value)) :
    text = setting.option ++ "=" ++ value := by
  apply String.toList_inj.mp
  rw [toList_of_ofText_named isNamed, String.toList_append, String.toList_append,
    setting.toList_option]
  simp

end Spellings

/-- A row of options, each of which can be taken, with what they give in the end and what ends the
row. -/
inductive Row (level : Level) : Given → List String → Given → Ending → Prop
  | arguments {given : Given} : Row level given [] given .arguments
  | plain {given : Given} {text : String} {rest : List String}
      (isPlain : Argument.ofText text = .plain) :
      Row level given (text :: rest) given (.plain text rest)
  | mark {given : Given} {rest : List String} : Row level given ("--" :: rest) given (.mark rest)
  | option {given next after : Given} {choice : Choice} {words rest : List String}
      {ending : Ending} (written : choice.Writes words)
      (taken : given.take? level choice = some next)
      (behind : Row level next rest after ending) :
      Row level given (words ++ rest) after ending

section Rows

variable {level : Level} {given next after : Given} {ending : Ending} {texts rest : List String}

theorem turnOn_isProtected (given : Given) (level : Level) :
    given.turnOn level .isProtected =
      (given.take? level .protection).elim (.error .usage) .ok := by
  unfold Given.turnOn
  rw [Given.take?]
  by_cases known : level.knows .isProtected = true
  · rw [if_neg (not_not.mpr known)]
    cases on : given.isProtected with
    | false => simp only [known, and_self, if_true]; rfl
    | true => simp only [Bool.true_eq_false, and_false, if_false]; rfl
  · rw [if_pos known, if_neg fun possible => known possible.1]
    rfl

theorem turnOn_eq_ok {switch : Switch} (turned : given.turnOn level switch = .ok next) :
    switch = .isProtected ∧ given.take? level .protection = some next := by
  cases switch with
  | isProtected =>
      refine ⟨rfl, ?_⟩
      rw [turnOn_isProtected] at turned
      cases taken : given.take? level .protection with
      | none =>
          rw [taken] at turned
          contradiction
      | some other =>
          rw [taken] at turned
          rw [Except.ok.inj turned]
  | help =>
      unfold Given.turnOn at turned
      split at turned <;> contradiction
  | version =>
      unfold Given.turnOn at turned
      split at turned <;> contradiction

/-- An option at the start of a row is taken, or else the row is refused. -/
theorem readOptions_option {choice : Choice} {words : List String} (written : choice.Writes words)
    (given : Given) (rest : List String) :
    readOptions level given (words ++ rest) =
      (given.take? level choice).elim (.error .usage) fun next =>
        readOptions level next rest := by
  cases written with
  | protection =>
      have noSetting : Setting.ofName? "pbe".toList = none := rfl
      have isSwitch : Switch.ofName? "pbe".toList = some .isProtected := rfl
      show readOptions level given ("--pbe" :: rest) = _
      rw [readOptions, show Argument.ofText "--pbe" = .named "pbe".toList none from rfl]
      simp only [noSetting, isSwitch, turnOn_isProtected]
      cases given.take? level .protection with
      | none => rfl
      | some next => rfl
  | @detached setting value plain =>
      show readOptions level given (setting.option :: value :: rest) = _
      rw [readOptions, Argument.ofText_option]
      simp only [setting.ofName?_name, plain]
      rw [if_neg (not_not.mpr rfl), Given.take?]
      cases given.put? level setting value with
      | none => rfl
      | some next => rfl
  | @attached setting value =>
      rw [List.singleton_append, readOptions, Argument.ofText_attached]
      simp only [setting.ofName?_name]
      rw [Given.take?]
      cases given.put? level setting value with
      | none => rfl
      | some next => rfl

theorem Row.readOptions_eq (row : Row level given texts after ending) :
    readOptions level given texts = .ok (after, ending) := by
  induction row with
  | arguments => rw [readOptions]
  | plain isPlain => exact readOptions_plain isPlain _
  | mark => rw [readOptions]; rfl
  | option written taken behind inductionHypothesis =>
      rw [readOptions_option written, taken]
      exact inductionHypothesis

theorem row_of_readOptions (read : readOptions level given texts = .ok (after, ending)) :
    Row level given texts after ending := by
  -- By the recursion of the parser; it goes on only in the four cases that take an option.
  fun_induction readOptions level given texts with
  | case1 given =>
      obtain ⟨rfl, rfl⟩ := Prod.mk.inj (Except.ok.inj read)
      exact .arguments
  | case2 given text rest isPlain =>
      obtain ⟨rfl, rfl⟩ := Prod.mk.inj (Except.ok.inj read)
      exact .plain isPlain
  | case3 given text rest isMark =>
      obtain ⟨rfl, rfl⟩ := Prod.mk.inj (Except.ok.inj read)
      obtain rfl := Argument.eq_mark_of_ofText isMark
      exact .mark
  | case6 given text rest letter isLetter switch isSwitch next turned inductionHypothesis =>
      -- The only switch after which the parser goes on has no letter.
      obtain ⟨rfl, _⟩ := turnOn_eq_ok turned
      unfold Switch.ofLetter? at isSwitch
      split at isSwitch
      · contradiction
      · split at isSwitch <;> contradiction
  | case8 given text rest name setting isSetting value next put isNamed inductionHypothesis =>
      rw [Setting.ofName?_eq_some_iff.mp isSetting] at isNamed
      obtain rfl := Argument.eq_attached_of_ofText isNamed
      exact .option .attached put (inductionHypothesis read)
  | case12 given text name setting isSetting value rest plain next put isNamed
      inductionHypothesis =>
      rw [Setting.ofName?_eq_some_iff.mp isSetting] at isNamed
      obtain rfl := Argument.eq_option_of_ofText isNamed
      exact .option (.detached (not_not.mp plain)) put (inductionHypothesis read)
  | case14 given text rest name noSetting switch isSwitch next turned isNamed
      inductionHypothesis =>
      obtain ⟨rfl, taken⟩ := turnOn_eq_ok turned
      have isProtection : name = "pbe".toList := by
        unfold Switch.ofName? at isSwitch
        split at isSwitch
        case isTrue same =>
          exact same
        case isFalse =>
          split at isSwitch
          · contradiction
          · split at isSwitch <;> contradiction
      have spelled : text = "--pbe" := by
        apply String.toList_inj.mp
        rw [Argument.toList_of_ofText_named isNamed, isProtection]
        rfl
      rw [spelled]
      exact .option .protection taken (inductionHypothesis read)
  | _ => contradiction

theorem readOptions_eq_ok_iff :
    readOptions level given texts = .ok (after, ending) ↔ Row level given texts after ending :=
  ⟨row_of_readOptions, Row.readOptions_eq⟩

end Rows

end KeyStore.Arguments
