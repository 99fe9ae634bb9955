import LineAsm.Proofs.Source.Layout

/-!
# Layout does not change the program

What is compiled from a text depends on the labels and the words of its addressed lines alone
(`Program.compile_congr`): labels are collected from the labels, operands are resolved among the
words (`LabelTable.tokens_resolveLine_congr`), and lines with the same words are decoded alike.
Comments are carried along in the texts of the lines, and nothing is read from them.

An edit of the layout leaves labels and words as they are.  So after any number of such edits a
text compiles to the same instructions with the same label table, or fails with the same error
at the same line (`Program.compile_of_layout`).
-/

set_option autoImplicit false

namespace LineAsm

/-! ## Linking lines with the same labels and words -/

namespace LabelTable

/-- **What becomes of the words of a line** when it is resolved depends on these words alone. -/
theorem tokens_resolveLine_congr {text other : String}
    (same : (Statement.ofLine text).tokens = (Statement.ofLine other).tokens) (table : LabelTable)
    (form : ProgramForm) (line : Nat) :
    (table.resolveLine form line text).map (fun out => (Statement.ofLine out).tokens) =
      (table.resolveLine form line other).map fun out => (Statement.ofLine out).tokens := by
  have places : (Statement.ofLine text).labelPlace? = (Statement.ofLine other).labelPlace? := by
    rw [Statement.labelPlace?, Statement.labelPlace?, same]
  cases takes : (Statement.ofLine other).labelPlace? with
  | none =>
      rw [resolveLine_of_none takes, resolveLine_of_none (places.trans takes)]
      exact congrArg Except.ok same
  | some place =>
      cases at_ : (Statement.ofLine other).tokens[place]? with
      | none => simp only [resolveLine, places, takes, same, at_]
      | some operand =>
          cases found : table.resolveOperand form line operand with
          | error failure => simp only [resolveLine, places, takes, same, at_, found]
          | ok number =>
              have read (text : String) : Statement.ofLine
                  ((Statement.ofLine text).withToken place number).render =
                    (Statement.ofLine text).withToken place number :=
                Statement.ofLine_render ((Statement.wellFormed_ofLine text).withToken
                  (Statement.labelPlace?_ne_zero takes) (isDigits_of_resolveOperand found))
              rw [resolveLine_of_some takes at_ found,
                resolveLine_of_some (places.trans takes) (same ▸ at_) found]
              simp only [Except.map, read]
              exact congrArg (fun words => Except.ok (words.set place number)) same

theorem tokens_resolveFrom_congr {lines others : List String}
    (same : lines.map (fun text => (Statement.ofLine text).tokens) =
      others.map (fun text => (Statement.ofLine text).tokens)) (table : LabelTable)
    (form : ProgramForm) (start : Nat) :
    (table.resolveFrom form start lines).map
        (List.map fun out => (Statement.ofLine out).tokens) =
      (table.resolveFrom form start others).map
        (List.map fun out => (Statement.ofLine out).tokens) := by
  induction lines generalizing others start with
  | nil =>
      obtain rfl := List.map_eq_nil_iff.mp same.symm
      rfl
  | cons text later ih =>
      obtain ⟨other, rest, rfl, first, remaining⟩ := List.map_eq_cons_iff.mp same.symm
      rw [resolveFrom, resolveFrom]
      rcases cases_of_map_eq (tokens_resolveLine_congr first.symm table form start) with
        ⟨failure, fails, otherFails⟩ | ⟨out, otherOut, done, otherDone, one⟩
      · rw [fails, otherFails]
      · rcases cases_of_map_eq (ih remaining.symm (start + 1)) with
          ⟨failure, fails, otherFails⟩ | ⟨outs, otherOuts, all, otherAll, later⟩
        · rw [done, otherDone, fails, otherFails]
        · rw [done, otherDone, all, otherAll]
          exact congrArg Except.ok (congrArg₂ List.cons one later)

end LabelTable

/-- Lines with the same labels and words are linked alike. -/
theorem link_congr {lines others : List String}
    (labels : lines.map labelOf? = others.map labelOf?)
    (words : lines.map (fun text => (Statement.ofLine text).tokens) =
      others.map (fun text => (Statement.ofLine text).tokens)) (form : ProgramForm) :
    (link form lines).map (fun linked =>
        (linked.1, linked.2.map fun out => (Statement.ofLine out).tokens)) =
      (link form others).map fun linked =>
        (linked.1, linked.2.map fun out => (Statement.ofLine out).tokens) := by
  rw [link, link, LabelTable.ofLines_congr labels]
  cases LabelTable.ofLines others with
  | error failure => rfl
  | ok table =>
      rcases cases_of_map_eq (LabelTable.tokens_resolveFrom_congr words table form 1) with
        ⟨failure, fails, otherFails⟩ | ⟨outs, otherOuts, done, otherDone, same⟩
      · simp [bind, Except.bind, LabelTable.resolve, fails, otherFails]
      · simp [bind, Except.bind, LabelTable.resolve, done, otherDone, pure, Except.pure, Except.map,
          same]

namespace Program

/-! ## Compiling texts that say the same -/

/-- **What is compiled depends on the labels and the words of the lines alone.** -/
theorem compile_congr {text other : String}
    (labels : (Source.normalLines text).map labelOf? = (Source.normalLines other).map labelOf?)
    (words : (Source.normalLines text).map (fun line => (Statement.ofLine line).tokens) =
      (Source.normalLines other).map (fun line => (Statement.ofLine line).tokens))
    (form : ProgramForm) :
    (compile form text).map (fun program => (program.instructions, program.labels)) =
      (compile form other).map fun program => (program.instructions, program.labels) := by
  rw [compile, compile]
  rcases cases_of_map_eq (link_congr labels words form) with
    ⟨failure, fails, otherFails⟩ | ⟨⟨table, outs⟩, ⟨_, otherOuts⟩, linked, otherLinked, same⟩
  · rw [fails, otherFails]
  · obtain ⟨rfl, sameWords⟩ := Prod.mk.inj same
    rcases cases_of_map_eq (instructions_decodeLines_congr sameWords) with
      ⟨failure, fails, otherFails⟩ | ⟨lines, otherLines, decoded, otherDecoded, instructions⟩
    · simp only [linked, otherLinked, fails, otherFails]
    · simp only [linked, otherLinked, decoded, otherDecoded]
      exact congrArg (fun row => Except.ok (row, table)) instructions

/-- Texts with the same contents have the same labels and words. -/
theorem labels_words_of_contents {text other : String}
    (same : Source.contents text = Source.contents other) :
    (Source.normalLines text).map labelOf? = (Source.normalLines other).map labelOf? ∧
      (Source.normalLines text).map (fun line => (Statement.ofLine line).tokens) =
        (Source.normalLines other).map fun line => (Statement.ofLine line).tokens := by
  have said (text : String) : (Source.normalLines text).map
        (fun line => ((Statement.ofLine line).label, (Statement.ofLine line).tokens)) =
      (Source.contents text).map Statement.ofWords := by
    rw [Source.normalLines_eq, Source.contents, List.map_map, List.map_map]
    refine List.map_congr_left fun line _ => ?_
    rw [Function.comp_apply, Statement.label_tokens_ofLine, String.toList_ofList]
    rfl
  have both := (said text).trans ((congrArg _ same).trans (said other).symm)
  have labels := congrArg (List.map Prod.fst) both
  have words := congrArg (List.map Prod.snd) both
  rw [List.map_map, List.map_map] at labels words
  exact ⟨labels, words⟩

/-- **Layout does not change the program.**  However the layout of a text is edited, the two
texts fail with the same error, or both are compiled and have the same instructions and the same
label table. -/
theorem compile_of_layout {text other : String}
    (edited : Relation.ReflTransGen Source.LayoutEdit text other) (form : ProgramForm) :
    (∃ failure, compile form text = .error failure ∧ compile form other = .error failure) ∨
      ∃ program again, compile form text = .ok program ∧ compile form other = .ok again ∧
        again.instructions = program.instructions ∧ again.labels = program.labels := by
  have contents : Source.contents other = Source.contents text := by
    induction edited with
    | refl => rfl
    | tail _ edit ih => exact (Source.contents_of_layoutEdit edit).trans ih
  obtain ⟨labels, words⟩ := labels_words_of_contents contents.symm
  rcases cases_of_map_eq (compile_congr labels words form) with
    failed | ⟨program, again, compiled, otherCompiled, same⟩
  · exact .inl failed
  · obtain ⟨instructions, tables⟩ := Prod.mk.inj same
    exact .inr ⟨program, again, compiled, otherCompiled, instructions.symm, tables.symm⟩

/-- A source without any layout. -/
def bareSource : String := "start:DEC A0\nJNZ A0 start\n"

/-- What it is compiled to. -/
def bareProgram : Program where
  lines := #[⟨"start:DEC A0", .dec ⟨.a, 0⟩⟩,
    ⟨"JNZ A0 1", .branch .jumpNonzero ⟨true, false, true⟩ ⟨.a, 0⟩ (.literal 0) 1⟩]
  labels := ⟨[("start", 1)]⟩

/-- The same source with comments, an empty line and indentation. -/
def laidOutSource : String :=
  "// count down\r\nstart:DEC A0 // once\n\n\t JNZ A0 start\n"

theorem layoutEdits_laidOutSource :
    Relation.ReflTransGen Source.LayoutEdit bareSource laidOutSource := by
  have heading : Source.LayoutEdit bareSource
      "// count down\r\nstart:DEC A0\nJNZ A0 start\n" :=
    .insert .start (@Source.Idle.comment "" " count down" nofun) (by decide) .returnFeed bareSource
  have comment : Source.LayoutEdit "// count down\r\nstart:DEC A0\nJNZ A0 start\n"
      "// count down\r\nstart:DEC A0 // once\nJNZ A0 start\n" :=
    @Source.LayoutEdit.comment _ "start:DEC A0" " once" _ (.behind "// count down\r") (by decide)
      (by decide) (by decide) (.before .feed "JNZ A0 start\n")
  have empty : Source.LayoutEdit "// count down\r\nstart:DEC A0 // once\nJNZ A0 start\n"
      "// count down\r\nstart:DEC A0 // once\n\nJNZ A0 start\n" :=
    .insert (.behind "// count down\r\nstart:DEC A0 // once") (@Source.Idle.blank "" rfl)
      (by decide) .feed "JNZ A0 start\n"
  have indent : Source.LayoutEdit "// count down\r\nstart:DEC A0 // once\n\nJNZ A0 start\n"
      laidOutSource :=
    @Source.LayoutEdit.indent _ "\t " "JNZ A0 start" _
      (.behind "// count down\r\nstart:DEC A0 // once\n") (List.all_eq_true.mp (by decide))
      (by decide) (.before .feed "")
  exact .tail (.tail (.tail (.single heading) comment) empty) indent

theorem compile_of_layout_laidOut :
    compile .source bareSource = .ok bareProgram ∧
      Relation.ReflTransGen Source.LayoutEdit bareSource laidOutSource ∧
      ∃ again, compile .source laidOutSource = .ok again ∧
        again.instructions = bareProgram.instructions ∧ again.labels = bareProgram.labels := by
  have compiled : compile .source bareSource = .ok bareProgram := by decide +kernel
  refine ⟨compiled, layoutEdits_laidOutSource, ?_⟩
  rcases compile_of_layout layoutEdits_laidOutSource .source with
    ⟨failure, fails, -⟩ | ⟨program, again, same, otherCompiled, instructions, labels⟩
  · rw [compiled] at fails
    cases fails
  · obtain rfl := Except.ok.inj (same.symm.trans compiled)
    exact ⟨again, otherCompiled, instructions, labels⟩

end Program

end LineAsm
