import KeyStore.Pem
import KeyStore.Proofs.Base64.WebSafe
import Mathlib.Data.List.Chain

/-!
# Reading what armour is written

A block that is written with any tag, line width and line end is read back, whatever stands behind
it, even on its last line, and whatever stands in front of it, as long as the lines in front do not
open a block.
-/

namespace KeyStore.Pem

section Search

variable {marker : List Char}

theorem findFrom_expected (expected seen rest : List Char) :
    findFrom marker expected seen (expected ++ rest) =
      some (((expected.reverse ++ seen).drop marker.length).reverse, rest) := by
  induction expected generalizing seen with
  | nil =>
      cases rest <;> rfl
  | cons next others inductionHypothesis =>
      rw [List.cons_append, findFrom, if_pos rfl, inductionHypothesis, List.reverse_cons,
        List.append_assoc]
      rfl

theorem findFrom_marker (marker before rest : List Char) :
    findFrom marker marker before.reverse (marker ++ rest) = some (before, rest) := by
  rw [findFrom_expected, ← List.reverse_append, List.drop_reverse, List.length_append,
    Nat.add_sub_cancel, List.take_left, List.reverse_reverse]

/-- A text without the first character of a marker is passed over. -/
theorem findFrom_of_notMem {first : Char} {others text : List Char} (absent : first ∉ text)
    (seen rest : List Char) :
    findFrom (first :: others) (first :: others) seen (text ++ rest) =
      findFrom (first :: others) (first :: others) (text.reverse ++ seen) rest := by
  induction text generalizing seen with
  | nil =>
      rfl
  | cons char text inductionHypothesis =>
      obtain ⟨different, absentBehind⟩ := not_or.mp (List.mem_cons.not.mp absent)
      rw [List.cons_append, findFrom, if_neg (Ne.symm different), inductionHypothesis absentBehind,
        List.reverse_cons, List.append_assoc]
      rfl

theorem find?_of_notMem {first : Char} {others text : List Char} (absent : first ∉ text)
    (rest : List Char) :
    find? (first :: others) (text ++ ((first :: others) ++ rest)) = some (text, rest) := by
  rw [find?, findFrom_of_notMem absent, List.append_nil]
  exact findFrom_marker _ text rest

/-- Behind a text in which a marker does not occur, some of the marker is still to come. -/
theorem findFrom_of_absent {matched expected text : List Char}
    (whole : matched ++ expected = marker) (absent : ¬marker <:+: matched ++ text)
    (seen : List Char) :
    ∃ next others, next ∈ marker ∧ ∀ rest, findFrom marker expected seen (text ++ rest) =
      findFrom marker (next :: others) (text.reverse ++ seen) rest := by
  induction text generalizing matched expected seen with
  | nil =>
      cases expected with
      | nil =>
          rw [List.append_nil] at whole absent
          exact absurd (whole ▸ List.infix_rfl) absent
      | cons next others =>
          refine ⟨next, others, ?_, fun _ => rfl⟩
          rw [← whole]
          exact List.mem_append_right matched List.mem_cons_self
  | cons char text inductionHypothesis =>
      cases expected with
      | nil =>
          rw [List.append_nil] at whole
          exact absurd (whole ▸ (List.prefix_append matched (char :: text)).isInfix) absent
      | cons next others =>
          -- The search goes on with one character less, or starts again behind a mismatch.
          have continued : ∃ matched' expected', matched' ++ expected' = marker ∧
              ¬marker <:+: matched' ++ text ∧ ∀ rest,
                findFrom marker (next :: others) seen (char :: text ++ rest) =
                  findFrom marker expected' (char :: seen) (text ++ rest) := by
            by_cases same : char = next
            · refine ⟨matched ++ [char], others, ?_, ?_, fun rest => ?_⟩
              · rw [same, List.append_assoc]
                exact whole
              · rw [List.append_assoc]
                exact absent
              · rw [List.cons_append, findFrom, if_pos same]
            · refine ⟨[], marker, rfl, ?_, fun rest => ?_⟩
              · intro occurs
                refine absent (occurs.trans ?_)
                exact ((List.suffix_cons char text).trans
                  (List.suffix_append matched (char :: text))).isInfix
              · rw [List.cons_append, findFrom, if_neg same]
          obtain ⟨matched', expected', whole', absent', step⟩ := continued
          obtain ⟨next', others', member, found⟩ :=
            inductionHypothesis whole' absent' (char :: seen)
          refine ⟨next', others', member, fun rest => ?_⟩
          rw [step, found, List.reverse_cons, List.append_assoc]
          rfl

theorem find?_of_absent {text : List Char} (absent : ¬marker <:+: text) :
    find? marker text = none := by
  obtain ⟨next, others, _, found⟩ :=
    findFrom_of_absent (List.nil_append marker) absent []
  have search := found []
  rw [List.append_nil] at search
  rw [find?, search]
  rfl

theorem find?_behind_lines {lines : List Char} (lineFeed : '\n' ∉ marker)
    (absent : ¬marker <:+: lines ++ ['\n']) (rest : List Char) :
    find? marker (lines ++ ['\n'] ++ (marker ++ rest)) = some (lines ++ ['\n'], rest) := by
  have absentBefore : ¬marker <:+: lines := fun occurs =>
    absent (occurs.trans (List.prefix_append lines ['\n']).isInfix)
  obtain ⟨next, others, member, found⟩ :=
    findFrom_of_absent (List.nil_append marker) absentBefore []
  have mismatch : '\n' ≠ next := fun same => lineFeed (same ▸ member)
  have behind := findFrom_marker marker (lines ++ ['\n']) rest
  rw [List.reverse_append] at behind
  rw [find?, List.append_assoc, found, List.singleton_append, findFrom, if_neg mismatch,
    List.append_nil]
  exact behind

end Search

/-- A character that is neither a dash nor a blank. -/
def IsPlain (char : Char) : Prop :=
  char ≠ '-' ∧ isBlank char = false

theorem isPlain_symbol {value : Nat} (small : value < 64) :
    IsPlain (Char.ofUInt8 (Base64.Alphabet.standard.symbol value)) := by
  have all : ∀ value, value < 64 →
      Char.ofUInt8 (Base64.Alphabet.standard.symbol value) ≠ '-' ∧
        isBlank (Char.ofUInt8 (Base64.Alphabet.standard.symbol value)) = false := by
    decide +kernel
  exact all value small

theorem symbol_ascii {value : Nat} (small : value < 64) :
    Base64.Alphabet.standard.symbol value < 128 := by
  have all : ∀ value, value < 64 → Base64.Alphabet.standard.symbol value < 128 := by decide
  exact all value small

theorem isSpace_of_isPlain {char : Char} (plain : IsPlain char) : isSpace char = false := by
  rw [← Bool.not_eq_true]
  intro space
  have blank : isBlank char = true := by
    simp only [isSpace, Bool.or_eq_true, decide_eq_true_eq] at space
    rcases space with ((rfl | rfl) | rfl) | rfl <;> decide
  rw [plain.2] at blank
  contradiction

def symbols (contents : Bytes) : List Char :=
  (Base64.encode .standard .required contents).map Char.ofUInt8

theorem isPlain_of_mem_symbols {contents : Bytes} {char : Char} (member : char ∈ symbols contents) :
    IsPlain char := by
  obtain ⟨byte, byteMember, rfl⟩ := List.mem_map.mp member
  rcases Base64.mem_encode .required byteMember with ⟨value, small, rfl⟩ | ⟨_, rfl⟩
  · exact isPlain_symbol small
  · exact ⟨by decide, by decide⟩

theorem utf8_symbols (contents : Bytes) :
    Utf8.encode (String.ofList (symbols contents)) =
      Base64.encode .standard .required contents := by
  refine Utf8.encode_ofUInt8 fun byte member => ?_
  rcases Base64.mem_encode .required member with ⟨value, small, rfl⟩ | ⟨_, rfl⟩
  · exact symbol_ascii small
  · decide

/-- A text and the same text cut into lines of any length, none of them empty. -/
inductive InLines (lineEnd : LineEnd) : (text lines : List Char) → Prop where
  | nil : InLines lineEnd [] []
  | line {rest lines : List Char} (line : List Char) (nonempty : line ≠ [])
      (later : InLines lineEnd rest lines) :
      InLines lineEnd (line ++ rest) (line ++ (lineEnd.chars ++ lines))

theorem inLines_cutLines (width : Nat) (lineEnd : LineEnd) (text : List Char) :
    InLines lineEnd text (cutLines width lineEnd text) := by
  induction size : text.length using Nat.strongRecOn generalizing text with
  | ind _ inductionHypothesis =>
      cases text with
      | nil =>
          rw [cutLines]
          exact .nil
      | cons char rest =>
          have shorter : (rest.drop width).length < (char :: rest).length := by
            rw [List.length_drop, List.length_cons]
            omega
          have later := inductionHypothesis _ (size ▸ shorter) (rest.drop width) rfl
          have whole : char :: rest = (char :: rest.take width) ++ rest.drop width := by
            rw [List.cons_append, List.take_append_drop]
          rw [cutLines, List.append_assoc]
          nth_rewrite 1 [whole]
          exact .line _ (List.cons_ne_nil _ _) later

namespace InLines

variable {lineEnd : LineEnd} {text lines : List Char}

theorem head?_eq (cut : InLines lineEnd text lines) : lines.head? = text.head? := by
  cases cut with
  | nil => rfl
  | line line nonempty later =>
      rw [List.head?_append_of_ne_nil _ nonempty, List.head?_append_of_ne_nil _ nonempty]

theorem dash_notMem (cut : InLines lineEnd text lines) (plain : ∀ char ∈ text, IsPlain char) :
    '-' ∉ lines := by
  induction cut with
  | nil =>
      exact List.not_mem_nil
  | line line _ _ inductionHypothesis =>
      obtain ⟨linePlain, restPlain⟩ := List.forall_mem_append.mp plain
      have noDash : '-' ∉ lineEnd.chars := by
        cases lineEnd <;> decide
      rw [List.mem_append, List.mem_append]
      rintro (member | member | member)
      · exact (linePlain _ member).1 rfl
      · exact noDash member
      · exact inductionHypothesis restPlain member

theorem filter_eq (cut : InLines lineEnd text lines) (plain : ∀ char ∈ text, IsPlain char) :
    lines.filter (fun char => ¬isBlank char) = text := by
  induction cut with
  | nil =>
      rfl
  | line line _ _ inductionHypothesis =>
      obtain ⟨linePlain, restPlain⟩ := List.forall_mem_append.mp plain
      have lineKept : line.filter (fun char => ¬isBlank char) = line :=
        List.filter_eq_self.mpr fun char member => by simp [(linePlain char member).2]
      have noneKept : lineEnd.chars.filter (fun char => ¬isBlank char) = [] := by
        cases lineEnd <;> decide
      rw [List.filter_append, List.filter_append, lineKept, noneKept, inductionHypothesis restPlain,
        List.nil_append]

theorem isChain (cut : InLines lineEnd text lines) (plain : ∀ char ∈ text, IsPlain char) :
    lines.IsChain fun before behind => before = '\n' → isBlank behind = false := by
  induction cut with
  | nil =>
      exact .nil
  | line line _ later inductionHypothesis =>
      obtain ⟨linePlain, restPlain⟩ := List.forall_mem_append.mp plain
      have linePairs : line.Pairwise fun before behind => before = '\n' → isBlank behind = false :=
        List.pairwise_of_forall_mem_list fun _ _ behind member _ => (linePlain behind member).2
      have endChain : lineEnd.chars.IsChain
          fun before behind => before = '\n' → isBlank behind = false := by
        cases lineEnd
        · exact .singleton _
        · exact List.isChain_pair.mpr (by decide)
      refine List.isChain_append.mpr ⟨linePairs.isChain, List.isChain_append.mpr
        ⟨endChain, inductionHypothesis restPlain, fun _ _ behind member _ => ?_⟩, ?_⟩
      · rw [later.head?_eq] at member
        exact (restPlain behind (List.mem_of_head? member)).2
      · intro before member _ _ lineFeed
        have blank : isBlank '\n' = true := by decide
        have notBlank := (linePlain before (List.mem_of_getLast? member)).2
        rw [lineFeed, blank] at notBlank
        contradiction

theorem splitHeaders_eq (cut : InLines lineEnd text lines) (plain : ∀ char ∈ text, IsPlain char) :
    splitHeaders lines = ([], lines) := by
  have chain := cut.isChain plain
  have noEmptyLine : ¬['\n', '\n'] <:+: lines := by
    intro occurs
    have pair := List.IsChain.infix chain occurs
    exact absurd (List.isChain_pair.mp pair rfl) (by decide)
  have noEmptyLongLine : ¬['\r', '\n', '\r', '\n'] <:+: lines := by
    intro occurs
    have line := List.IsChain.infix chain occurs
    have triple := (List.isChain_cons_cons.mp line).2
    exact absurd ((List.isChain_cons_cons.mp triple).1 rfl) (by decide)
  rw [splitHeaders, find?_of_absent noEmptyLine]
  simp only [find?_of_absent noEmptyLongLine]

end InLines

/-- The lines of a byte string are a payload without headers, which is read back. -/
theorem decodePayload_cutLines (width : Nat) (lineEnd : LineEnd) (contents : Bytes) :
    decodePayload (cutLines width lineEnd (symbols contents)) = .ok contents := by
  have cut := inLines_cutLines width lineEnd (symbols contents)
  have plain : ∀ char ∈ symbols contents, IsPlain char := fun _ => isPlain_of_mem_symbols
  have noHeader : badHeader? [] = none := rfl
  rw [decodePayload, cut.splitHeaders_eq plain]
  simp only [cut.filter_eq plain, utf8_symbols,
    Base64.decode_encode .required Base64.Alphabet.standard_lawful, noHeader]

/-! ## Files -/

/-- How a byte string is laid out in a file: what stands in front of the block and behind it, its
tag, the width of its lines and their ends. The lines in front open no block. -/
structure Layout where
  before : List Char
  tag : List Char
  width : Nat
  lineEnd : LineEnd
  after : List Char
  before_lines : before = [] ∨ ∃ lines, before = lines ++ ['\n']
  before_noMarker : ¬beginMarker <:+: before
  tag_nonempty : tag ≠ []
  tag_noDash : '-' ∉ tag

namespace Layout

def text (layout : Layout) (contents : Bytes) : String :=
  String.ofList
    (layout.before ++ write layout.tag layout.width layout.lineEnd contents ++ layout.after)

def block (layout : Layout) (contents : Bytes) : List Char :=
  beginMarker ++ layout.tag ++ closeMarker ++ layout.lineEnd.chars ++
    cutLines layout.width layout.lineEnd (symbols contents) ++ endMarker ++ layout.tag ++
    closeMarker

/-- The text of a file in which anything may follow the block, even on its last line. -/
def openText (layout : Layout) (contents : Bytes) : String :=
  String.ofList (layout.before ++ layout.block contents ++ layout.after)

theorem text_eq_openText (layout : Layout) (contents : Bytes) :
    layout.text contents =
      { layout with after := layout.lineEnd.chars ++ layout.after }.openText contents := by
  simp only [text, write, openText, block, symbols, List.append_assoc]

/-- The layout of a block that stands alone, in lines of 64 characters. -/
def alone (tag : List Char) (nonempty : tag ≠ []) (noDash : '-' ∉ tag) : Layout where
  before := []
  tag := tag
  width := 63
  lineEnd := .lf
  after := []
  before_lines := .inl rfl
  before_noMarker := by decide
  tag_nonempty := nonempty
  tag_noDash := noDash

theorem find?_beginMarker (layout : Layout) (rest : List Char) :
    find? beginMarker (layout.before ++ (beginMarker ++ rest)) = some (layout.before, rest) := by
  have noMarker := layout.before_noMarker
  rcases layout.before_lines with empty | ⟨lines, ends⟩
  · rw [empty, List.nil_append]
    exact findFrom_marker _ [] rest
  · rw [ends] at noMarker ⊢
    exact find?_behind_lines (by decide) noMarker rest

theorem find?_closeMarker (layout : Layout) (rest : List Char) :
    find? closeMarker (layout.tag ++ (closeMarker ++ rest)) = some (layout.tag, rest) :=
  find?_of_notMem layout.tag_noDash rest

/-- The line end behind the begin line is dropped, and nothing of the payload. -/
theorem dropWhile_lineEnd {lineEnd : LineEnd} {contents : Bytes} {lines : List Char}
    (cut : InLines lineEnd (symbols contents) lines) (rest : List Char) :
    (lineEnd.chars ++ (lines ++ (endMarker ++ rest))).dropWhile isSpace =
      lines ++ (endMarker ++ rest) := by
  have ends : ∀ char ∈ lineEnd.chars, isSpace char = true := by
    rw [← List.all_eq_true]
    cases lineEnd <;> rfl
  rw [List.dropWhile_append_of_pos ends]
  cases lines with
  | nil =>
      rfl
  | cons char lines =>
      have member : char ∈ symbols contents :=
        List.mem_of_head? (cut.head?_eq.symm.trans List.head?_cons)
      have noSpace := isSpace_of_isPlain (isPlain_of_mem_symbols member)
      rw [List.cons_append, List.dropWhile_cons_of_neg (by rw [noSpace]; decide)]

theorem parts?_openText (layout : Layout) (contents : Bytes) :
    parts? (layout.openText contents).toList =
      some ⟨layout.tag, cutLines layout.width layout.lineEnd (symbols contents), layout.tag⟩ := by
  have cut := inLines_cutLines layout.width layout.lineEnd (symbols contents)
  have noDash := cut.dash_notMem fun _ => isPlain_of_mem_symbols
  have payload (rest : List Char) :
      find? endMarker
          (cutLines layout.width layout.lineEnd (symbols contents) ++ (endMarker ++ rest)) =
        some (cutLines layout.width layout.lineEnd (symbols contents), rest) :=
    find?_of_notMem noDash rest
  rw [openText, String.toList_ofList, block]
  simp only [List.append_assoc, parts?, find?_beginMarker, find?_closeMarker,
    dropWhile_lineEnd cut, payload, bind, Option.bind, pure]

/-- The block of a file is read back, whatever stands around it and however it is laid out. -/
theorem parse_openText (layout : Layout) (contents : Bytes) :
    parse (layout.openText contents) = .ok ⟨String.ofList layout.tag, contents⟩ := by
  rw [parse, parts?_openText]
  simp only [Parts.block, if_neg layout.tag_nonempty, ne_eq, not_true_eq_false, if_false,
    decodePayload_cutLines]

/-- The block of a file is read back, whatever its layout is. -/
theorem parse_text (layout : Layout) (contents : Bytes) :
    parse (layout.text contents) = .ok ⟨String.ofList layout.tag, contents⟩ := by
  rw [text_eq_openText, parse_openText]

end Layout

end KeyStore.Pem
