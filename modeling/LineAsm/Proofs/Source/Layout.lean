import LineAsm.Proofs.Program.Addresses
import Mathlib.Logic.Relation

/-!
# Layout

The layout of a text is what may be edited without a change of what its lines say: lines without
a statement, indentation, comments behind the code and carriage returns in front of line feeds
(`Source.LayoutEdit`).

What the lines of a text say is given by the words of their code (`Source.contents`).  Contents
split at a line end (`Source.contents_append_ending`), so that an edit can be followed in the
line that it is made in, and there it changes nothing (`Source.contents_of_layoutEdit`).
Indentation, carriage returns at the end and a comment are blank as far as the code goes, so no
word of the line is changed (`Statement.codeWords_strip`, `Statement.codeWords_append`).
-/

set_option autoImplicit false

namespace LineAsm

/-! ## Words of the code of a line -/

namespace Statement

/-- The words of a line before its comment. -/
def codeWords (line : List Char) : List (List Char) := Text.words (cutComment line).1

/-- A comment goes on to the end of the line, and a line without one has its comment where the
text behind it has one. -/
theorem cutComment_append_cons (line behind : List Char) {c : Char} (other : c ≠ '/') :
    cutComment (line ++ c :: behind) =
      if (cutComment line).2 = [] then
        (line ++ c :: (cutComment behind).1, (cutComment behind).2)
      else ((cutComment line).1, (cutComment line).2 ++ c :: behind) := by
  fun_induction cutComment line with
  | case1 => rw [List.nil_append, cutComment.eq_3 c behind fun _ slash => absurd slash other]; rfl
  | case2 rest => rfl
  | case3 d rest notMark ih =>
      -- Two slashes side by side are both in the line, because `c` is none.
      have notMark' : ∀ tail, d = '/' → rest ++ c :: behind = '/' :: tail → False := by
        intro tail slash next
        cases rest with
        | nil => exact other (List.cons.inj next).1
        | cons e rest =>
            obtain ⟨rfl, -⟩ := List.cons.inj next
            exact notMark rest slash rfl
      rw [List.cons_append, cutComment.eq_3 d (rest ++ c :: behind) notMark', ih]
      split <;> rfl

theorem codeWords_cons {c : Char} (blank : Text.isBlank c = true) (line : List Char) :
    codeWords (c :: line) = codeWords line := by
  have notMark : ∀ tail, c = '/' → line = '/' :: tail → False := by
    rintro _ rfl -
    exact absurd blank (by decide)
  rw [codeWords, cutComment.eq_3 c line notMark]
  exact Text.words_append_blank [] _ blank

/-- **Text behind a blank adds no words** when its code is blank. -/
theorem codeWords_append {c : Char} (blank : Text.isBlank c = true) (line : List Char)
    {behind : List Char} (nothing : Text.allBlank (cutComment behind).1 = true) :
    codeWords (line ++ c :: behind) = codeWords line := by
  have other : c ≠ '/' := by
    rintro rfl
    exact absurd blank (by decide)
  rw [codeWords, cutComment_append_cons line behind other, codeWords]
  split
  · rename_i noComment
    have whole := cutComment_append line
    rw [noComment, List.append_nil] at whole
    rw [whole, Text.words_append_blank _ _ blank, Text.words_of_allBlank nothing, List.append_nil]
  · rfl

theorem codeWords_dropWhile (line : List Char) :
    codeWords (line.dropWhile Source.indents) = codeWords line := by
  induction line with
  | nil => rfl
  | cons c line ih =>
      cases indent : Source.indents c with
      | false => rw [List.dropWhile_cons_of_neg (by simp [indent])]
      | true =>
          rw [List.dropWhile_cons_of_pos indent, ih,
            codeWords_cons (Source.isBlank_of_indents c indent)]

/-- **Stripping a line changes no word.** -/
theorem codeWords_strip (line : List Char) : codeWords (Source.strip line) = codeWords line := by
  obtain ⟨returns, whole, all⟩ := Source.exists_dropTrailing (· == '\r') line
  rw [Source.strip_eq, codeWords_dropWhile]
  conv => rhs; rw [whole]
  cases returns with
  | nil => rw [List.append_nil]
  | cons c rest =>
      have blank : ∀ d ∈ c :: rest, Text.isBlank d = true := by
        intro d mem
        obtain rfl := beq_iff_eq.mp (all d mem)
        decide
      obtain ⟨first, later⟩ := List.forall_mem_cons.mp blank
      refine (codeWords_append first _ ?_).symm
      rw [Source.allBlank_code, Text.allBlank, List.all_eq_true.mpr later, Bool.true_or]

/-- The label and the words that the words of a line hold. -/
def ofWords (words : List (List Char)) : Option String × List String :=
  ((cutLabel words).1.map String.ofList, (cutLabel words).2.map String.ofList)

theorem label_tokens_ofLine (line : String) :
    ((ofLine line).label, (ofLine line).tokens) = ofWords (codeWords line.toList) := rfl

end Statement

namespace Source

/-! ## What the lines of a text say -/

/-- The stripped lines of a text that are kept. -/
def addressed (text : List Char) : List (List Char) :=
  ((Text.fields (· == '\n') text).map strip).filter isKept

/-- The words of the addressed lines of a text. -/
def contents (text : String) : List (List (List Char)) :=
  (addressed text.toList).map Statement.codeWords

/-- Carriage returns at the end of a line are stripped. -/
theorem strip_append_return (line : List Char) : strip (line ++ ['\r']) = strip line := by
  rw [strip_eq, strip_eq, Text.dropTrailing, List.reverse_append, List.reverse_singleton,
    List.singleton_append, List.dropWhile_cons_of_pos (by decide), Text.dropTrailing]

theorem strip_dropReturn (line : List Char) : strip (Text.dropReturn line) = strip line := by
  rw [Text.dropReturn]
  split
  · rename_i last
    obtain ⟨front, rfl⟩ := List.getLast?_eq_some_iff.mp last
    rw [List.dropLast_concat, strip_append_return]
  · rfl

/-- The lines of a text are its fields between line feeds: the carriage return in front of a line
feed would be stripped anyway, and an empty last line is not kept. -/
theorem filter_strip_linesOf (text : List Char) :
    ((Text.linesOf text).map strip).filter isKept = addressed text := by
  have terminated (pieces : List (List Char)) :
      (pieces.map Text.dropReturn).map strip = pieces.map strip := by
    rw [List.map_map]
    exact List.map_congr_left fun piece _ => strip_dropReturn piece
  rw [addressed, Text.linesOf]
  rcases List.eq_nil_or_concat' (Text.fields (· == '\n') text) with none | ⟨front, last, pieces⟩
  · exact absurd none (Text.fields_ne_nil _ _)
  · rw [pieces, List.getLast?_concat, List.dropLast_concat]
    cases last with
    | nil =>
        simp only [terminated, List.map_append, List.filter_append]
        exact (List.append_nil _).symm
    | cons c last => simp only [terminated, List.map_append]

/-- **The addressed lines of a text.** -/
theorem normalLines_eq (text : String) :
    normalLines text = (addressed text.toList).map String.ofList := by
  rw [normalLines, normalize, Text.lines, List.map_map, ← filter_strip_linesOf]
  refine congrArg (fun lines => (List.filter isKept lines).map String.ofList) ?_
  exact List.map_congr_left fun line _ => congrArg strip String.toList_ofList

/-! ## Lines of a text -/

/-- The characters that end a line. -/
inductive LineEnd : String → Prop where
  | feed : LineEnd "\n"
  | returnFeed : LineEnd "\r\n"

/-- A text behind which a line starts. -/
inductive StartsLine : String → Prop where
  | start : StartsLine ""
  | behind (earlier : String) : StartsLine (earlier ++ "\n")

/-- A text in front of which a line ends. -/
inductive EndsLine : String → Prop where
  | finish : EndsLine ""
  | before {ending : String} (ends : LineEnd ending) (later : String) : EndsLine (ending ++ later)

theorem addressed_append_feed (before after : List Char) :
    addressed (before ++ '\n' :: after) = addressed before ++ addressed after := by
  rw [addressed, Text.fields_append_separator before after (by decide), List.map_append,
    List.filter_append]
  rfl

/-- A carriage return at the end of a text is stripped. -/
theorem addressed_append_return (text : List Char) :
    addressed (text ++ ['\r']) = addressed text := by
  obtain ⟨earlier, last, grows, -⟩ := @Text.exists_last_field (· == '\n') text
  have longer := grows ['\r'] (List.forall_mem_singleton.mpr rfl)
  have same := grows [] nofun
  rw [List.append_nil, List.append_nil] at same
  rw [addressed, addressed, longer, same, List.map_append, List.map_append, List.map_singleton,
    List.map_singleton, strip_append_return]

/-- **Contents split at the end of a line.** -/
theorem contents_append_ending {ending : String} (ends : LineEnd ending) (before after : String) :
    contents (before ++ ending ++ after) = contents before ++ contents after := by
  rw [contents, contents, contents, ← List.map_append]
  refine congrArg (List.map Statement.codeWords) ?_
  cases ends with
  | feed =>
      rw [String.toList_append, String.toList_append, List.append_assoc]
      exact addressed_append_feed before.toList after.toList
  | returnFeed =>
      -- The carriage return is counted to the line that it ends, where it is stripped.
      rw [← addressed_append_return before.toList, ← addressed_append_feed]
      refine congrArg addressed ?_
      simp

@[simp]
theorem contents_empty : contents "" = [] := by decide

theorem contents_append_of_starts {before : String} (starts : StartsLine before) (rest : String) :
    contents (before ++ rest) = contents before ++ contents rest := by
  cases starts with
  | start => rw [String.empty_append, contents_empty, List.nil_append]
  | behind earlier =>
      have alone := contents_append_ending .feed earlier ""
      rw [String.append_empty, contents_empty, List.append_nil] at alone
      rw [contents_append_ending .feed, alone]

theorem contents_append_of_ends {after : String} (ends : EndsLine after) (rest : String) :
    contents (rest ++ after) = contents rest ++ contents after := by
  cases ends with
  | finish => rw [String.append_empty, contents_empty, List.append_nil]
  | before ends later =>
      have alone := contents_append_ending ends "" later
      rw [String.empty_append, contents_empty, List.nil_append] at alone
      rw [← String.append_assoc, contents_append_ending ends, alone]

/-- A single line says what its words say, if it is kept. -/
theorem contents_of_line {line : String} (oneLine : '\n' ∉ line.toList) :
    contents line =
      if isKept (strip line.toList) = true then [Statement.codeWords line.toList] else [] := by
  have alone : Text.fields (· == '\n') line.toList = [line.toList] :=
    Text.fields_of_forall_not fun c mem => beq_eq_false_iff_ne.mpr fun feed => oneLine (feed ▸ mem)
  rw [contents, addressed, alone, List.map_singleton, List.filter_cons, List.filter_nil]
  split
  · rw [List.map_singleton, Statement.codeWords_strip]
  · rfl

theorem contents_of_idle {line : String} (idle : Idle line) (oneLine : '\n' ∉ line.toList) :
    contents line = [] := by
  rw [contents_of_line oneLine, idle.not_kept]
  rfl

/-! ## Edits of the layout -/

/-- **An edit of the layout of a text.** -/
inductive LayoutEdit : String → String → Prop where
  /-- A line without a statement is put in front of a line. -/
  | insert {before line ending : String} (starts : StartsLine before) (idle : Idle line)
      (oneLine : '\n' ∉ line.toList) (ends : LineEnd ending) (after : String) :
      LayoutEdit (before ++ after) (before ++ line ++ ending ++ after)
  /-- A line without a statement is put behind the last line, which is ended for it. -/
  | append {line ending : String} (text : String) (ends : LineEnd ending) (idle : Idle line)
      (oneLine : '\n' ∉ line.toList) : LayoutEdit text (text ++ ending ++ line)
  /-- A line without a statement becomes the last line. -/
  | finish {text line : String} (starts : StartsLine text) (idle : Idle line)
      (oneLine : '\n' ∉ line.toList) : LayoutEdit text (text ++ line)
  /-- A line is indented. -/
  | indent {before indentation line after : String} (starts : StartsLine before)
      (indent : ∀ c ∈ indentation.toList, indents c = true) (oneLine : '\n' ∉ line.toList)
      (ends : EndsLine after) :
      LayoutEdit (before ++ line ++ after) (before ++ (indentation ++ line) ++ after)
  /-- A line that is kept gets a comment. -/
  | comment {before line note after : String} (starts : StartsLine before)
      (oneLine : '\n' ∉ line.toList) (kept : isKept (strip line.toList) = true)
      (oneNote : '\n' ∉ note.toList) (ends : EndsLine after) :
      LayoutEdit (before ++ line ++ after) (before ++ (line ++ " //" ++ note) ++ after)
  /-- A line is ended by a carriage return and a line feed. -/
  | returnFeed (before after : String) :
      LayoutEdit (before ++ "\n" ++ after) (before ++ "\r\n" ++ after)

theorem isKept_strip_indented {indentation : List Char}
    (indent : ∀ c ∈ indentation, indents c = true) (line : List Char) :
    isKept (strip (indentation ++ line)) = isKept (strip line) := by
  have blank : indentation.all Text.isBlank = true :=
    List.all_eq_true.mpr fun c mem => isBlank_of_indents c (indent c mem)
  rw [isKept_strip, isKept_strip, List.dropWhile_append_of_pos indent, Text.allBlank,
    List.all_append, blank, Bool.true_and]
  rfl

/-- A line that is kept stays so when text is put behind it that starts with no slash. -/
theorem isKept_strip_append {line behind : List Char} (kept : isKept (strip line) = true)
    (noSlash : behind.head? ≠ some '/') : isKept (strip (line ++ behind)) = true := by
  rw [isKept_strip, Bool.and_eq_true, Bool.not_eq_true', Bool.not_eq_true'] at kept ⊢
  obtain ⟨notBlank, noComment⟩ := kept
  have more : line.dropWhile indents ≠ [] := by
    intro none
    rw [Text.allBlank, ← all_dropWhile_of_imp isBlank_of_indents, none] at notBlank
    cases notBlank
  rw [List.dropWhile_append, if_neg (mt List.isEmpty_iff.mp more), isComment_append _ noSlash,
    Text.allBlank, List.all_append, ← Text.allBlank, notBlank]
  exact ⟨rfl, noComment⟩

theorem contents_indented {indentation line : String}
    (indent : ∀ c ∈ indentation.toList, indents c = true) (oneLine : '\n' ∉ line.toList) :
    contents (indentation ++ line) = contents line := by
  have oneIndented : '\n' ∉ (indentation ++ line).toList := by
    rw [String.toList_append, List.mem_append, not_or]
    exact ⟨fun feed => absurd (indent '\n' feed) (by decide), oneLine⟩
  rw [contents_of_line oneIndented, contents_of_line oneLine, String.toList_append,
    isKept_strip_indented indent, ← Statement.codeWords_dropWhile,
    List.dropWhile_append_of_pos indent, Statement.codeWords_dropWhile]

theorem contents_commented {line note : String} (oneLine : '\n' ∉ line.toList)
    (kept : isKept (strip line.toList) = true) (oneNote : '\n' ∉ note.toList) :
    contents (line ++ " //" ++ note) = contents line := by
  have commented : (line ++ " //" ++ note).toList =
      line.toList ++ ' ' :: '/' :: '/' :: note.toList := by
    simp
  have oneCommented : '\n' ∉ (line ++ " //" ++ note).toList := by
    rw [commented]
    simp [oneLine, oneNote]
  have noSlash : (' ' :: '/' :: '/' :: note.toList).head? ≠ some '/' := by simp
  rw [contents_of_line oneCommented, contents_of_line oneLine, commented, if_pos kept,
    if_pos (isKept_strip_append kept noSlash), Statement.codeWords_append (by decide) _ (by rfl)]

/-- **An edit of the layout changes nothing that a text says.** -/
theorem contents_of_layoutEdit {text other : String} (edit : LayoutEdit text other) :
    contents other = contents text := by
  cases edit with
  | insert starts idle oneLine ends after =>
      rw [contents_append_ending ends, contents_append_of_starts starts,
        contents_append_of_starts starts, contents_of_idle idle oneLine, List.append_nil]
  | append text ends idle oneLine =>
      rw [contents_append_ending ends, contents_of_idle idle oneLine, List.append_nil]
  | finish starts idle oneLine =>
      rw [contents_append_of_starts starts, contents_of_idle idle oneLine, List.append_nil]
  | indent starts indent oneLine ends =>
      rw [contents_append_of_ends ends, contents_append_of_ends ends,
        contents_append_of_starts starts, contents_append_of_starts starts,
        contents_indented indent oneLine]
  | comment starts oneLine kept oneNote ends =>
      rw [contents_append_of_ends ends, contents_append_of_ends ends,
        contents_append_of_starts starts, contents_append_of_starts starts,
        contents_commented oneLine kept oneNote]
  | returnFeed before after =>
      rw [contents_append_ending .feed, contents_append_ending .returnFeed]

end Source

end LineAsm
