import StructuredCall.Proofs.Program.Stub

/-!
# The code inside a stub

A candidate's code is written into the stub line by line, with the indentation of the stub ahead of
each line. It is read back from the text of a program: the lines behind the signature of the stub,
up to the line that ends its block, without the indentation. A stub of Python has no line that ends
its block; it ends at the next line that is not indented, and the empty line ahead of that line is
not part of it.

What is read back is not always the code. White space at the ends of lines is gone, and so is an
empty line at the end of a stub of Python, where it takes the place of the empty line behind the
stub. Without these, the code is read back as it is.

Main result: `Materializer.code_in_stub`.
-/

namespace StructuredCall

/-! ## Lines of a text -/

namespace Text

/-- The lines of a text, which end with a line feed and possibly a carriage return ahead of it. What
is behind the last line feed is a line if there is something. -/
def splitLines (s : String) : List (List Char) :=
  let pieces := pieces '\n' s.toList
  pieces.dropLast.map Source.dropCarriageReturn ++ pieces.getLast?.toList.filter (· ≠ [])

/-- A line without white space at its end. -/
def trimmed (cs : List Char) : List Char :=
  dropEndWhile isBlank cs

theorem trimEnd_ofList (cs : List Char) :
    trimEnd (String.ofList cs) = String.ofList (trimmed cs) := by
  rw [trimEnd, String.toList_ofList, trimmed]

theorem trimmed_dropCarriageReturn (cs : List Char) :
    trimmed (Source.dropCarriageReturn cs) = trimmed cs := by
  unfold Source.dropCarriageReturn
  split
  · next h =>
    obtain ⟨ds, rfl⟩ := List.getLast?_eq_some_iff.1 h
    rw [List.dropLast_concat]
    exact (dropEndWhile_blank (by decide)).symm
  · rfl

theorem exists_pieces (s : String) : ∃ init last, pieces '\n' s.toList = init ++ [last] := by
  obtain ⟨init, last, h⟩ := (List.eq_nil_or_concat (pieces '\n' s.toList)).resolve_left
    (pieces_ne_nil '\n' s.toList)
  exact ⟨init, last, by rw [h, List.concat_eq_append]⟩

theorem blockLines_eq (s : String) :
    blockLines s = (splitLines s).map fun line => String.ofList (trimmed line) := by
  obtain ⟨init, last, hpieces⟩ := exists_pieces s
  have hinit : init.map (fun piece => String.ofList (trimmed piece)) =
      (init.map Source.dropCarriageReturn).map fun line => String.ofList (trimmed line) := by
    rw [List.map_map]
    exact List.map_congr_left fun piece _ => congrArg _ (trimmed_dropCarriageReturn piece).symm
  simp only [blockLines, splitLines, hpieces, List.dropLast_concat, List.getLast?_concat,
    trimEnd_ofList]
  by_cases hlast : last = []
  · simpa [hlast] using hinit
  · simpa [hlast] using hinit

theorem blockLines_ne_nil {s : String} (h : isBlankText s = false) : blockLines s ≠ [] := by
  obtain ⟨init, last, hpieces⟩ := exists_pieces s
  rw [blockLines_eq, ne_eq, List.map_eq_nil_iff]
  intro hnil
  simp only [splitLines, hpieces, List.dropLast_concat, List.getLast?_concat,
    List.append_eq_nil_iff, List.map_eq_nil_iff] at hnil
  obtain ⟨rfl, hlast⟩ := hnil
  obtain rfl : last = [] := by simpa using hlast
  have hempty : s.toList = [] := by
    rw [← intercalate_pieces '\n' s.toList, hpieces]
    rfl
  rw [isBlankText, hempty] at h
  cases h

theorem oneLine_blockLines (s : String) : ∀ line ∈ blockLines s, OneLine line := by
  have hsub (cs : List Char) : trimmed cs <+: cs := by
    rw [trimmed, dropEndWhile, ← List.reverse_suffix, List.reverse_reverse]
    exact List.dropWhile_suffix _
  unfold blockLines
  refine List.forall_mem_map.2 fun piece hpiece hfeed => ?_
  have hmem : piece ∈ pieces '\n' s.toList := by
    split at hpiece
    · exact List.dropLast_subset _ hpiece
    · exact hpiece
  rw [trimEnd_ofList, String.toList_ofList] at hfeed
  exact not_mem_of_mem_pieces hmem ((hsub piece).subset hfeed)

end Text

/-! ## Reading a stub -/

namespace Language

variable (language : Language)

/-- The steps of a program for a test case up to the signature of the stub. -/
def stubHead (ctx : Context) : Compiled (List Step) := do
  let doc ← language.target.backend.stubDoc ctx
  let opening ← language.target.backend.signatureLine ctx
  return language.target.style.prelude language.target.backend ++ [.blank] ++
    language.target.backend.openUnit ++ doc ++ [.line opening]

/-- The indentation inside a stub. -/
def stubIndentation : List Char :=
  (String.join (List.replicate (language.unitDepth + 1) language.target.backend.indentUnit)).toList

/-- Whether a line is empty or has the indentation of a stub. -/
def isInside (line : List Char) : Bool :=
  line.isEmpty || language.stubIndentation.isPrefixOf line

/-- The lines inside a stub, from the lines behind its signature. -/
def stubInner (behind : List (List Char)) : List (List Char) :=
  match language.target.backend.blockEnd with
  | some mark => behind.takeWhile (· ≠ (Writer.indented language.target.backend.indentUnit
      language.unitDepth mark).toList)
  | none => (behind.takeWhile language.isInside).dropLast

/-- A line without the indentation of a stub. -/
def unindent (line : List Char) : List Char :=
  if language.stubIndentation.isPrefixOf line then line.drop language.stubIndentation.length
  else line

/-- The code in the stub of a program, line by line. -/
def codeInStub (ctx : Context) (program : String) : Compiled (List (List Char)) := do
  let head ← language.stubHead ctx
  let above := Writer.written language.target.backend.indentUnit 0 head
  let behind := (Text.pieces '\n' program.toList).drop above.length
  return (language.stubInner behind).map language.unindent

/-- What is left of the lines of a candidate's code. -/
def keptLines (lines : List (List Char)) : List (List Char) :=
  let kept := lines.map Text.trimmed
  if language.target.backend.blockEnd = none ∧ kept.getLast? = some [] then kept.dropLast else kept

/-! ## Lines inside -/

variable {language}

/-- A line inside a stub, as it is written. -/
def insideLine (language : Language) (text : String) : List Char :=
  (Writer.indented language.target.backend.indentUnit (language.unitDepth + 1) text).toList

theorem insideLine_of_ne {text : String} (h : text ≠ "") :
    language.insideLine text = language.stubIndentation ++ text.toList := by
  rw [insideLine, Writer.indented, if_neg (by simpa using h), String.toList_append]
  rfl

theorem isInside_insideLine (text : String) : language.isInside (language.insideLine text) := by
  by_cases h : text = ""
  · subst h
    rfl
  · rw [isInside, insideLine_of_ne h]
    simp

theorem stubIndentation_ne_nil (language : Language) : language.stubIndentation ≠ [] := by
  cases language <;> decide

theorem unindent_insideLine (text : String) :
    language.unindent (language.insideLine text) = text.toList := by
  by_cases h : text = ""
  · subst h
    have hprefix : ¬language.stubIndentation.isPrefixOf (language.insideLine "") := fun h =>
      language.stubIndentation_ne_nil (List.prefix_nil.1 (List.isPrefixOf_iff_prefix.1 h))
    exact if_neg hprefix
  · rw [unindent, insideLine_of_ne h, if_pos (by simp), List.drop_left]

theorem bodyLines_eq (body : String) :
    language.bodyLines body = (blockLines body).map language.insideLine := by
  have hrun (writer : Writer) :
      writer.run [.block body] = writer.run ((blockLines body).map .line) := by
    rw [Writer.run, Writer.run, List.foldl_map]
    rfl
  have hlines := language.written_lines (language.unitDepth + 1) (Text.oneLine_blockLines body)
  rw [Writer.written, ← hrun] at hlines
  exact hlines

/-! ## The end of a stub -/

theorem takeWhile_append_stop {α : Type} {p : α → Bool} {xs : List α} {stop : α} {more : List α}
    (h : ∀ x ∈ xs, p x = true) (hstop : p stop = false) :
    (xs ++ stop :: more).takeWhile p = xs := by
  rw [List.takeWhile_append_of_pos h, List.takeWhile_cons_of_neg (by simp [hstop]),
    List.append_nil]

/-- Where a line ends the block, it ends the code. -/
theorem stubInner_of_mark {mark : String} (hmark : language.target.backend.blockEnd = some mark)
    (texts : List String) (more : List (List Char)) :
    language.stubInner (texts.map language.insideLine ++ (Writer.indented
      language.target.backend.indentUnit language.unitDepth mark).toList :: more) =
        texts.map language.insideLine := by
  have houtside : language.isInside (Writer.indented language.target.backend.indentUnit
      language.unitDepth mark).toList = false := by
    cases language <;> cases hmark <;> decide
  rw [stubInner, hmark]
  refine takeWhile_append_stop (List.forall_mem_map.2 fun text _ => ?_) (by simp)
  rw [decide_eq_true_iff]
  intro heq
  rw [← heq, isInside_insideLine] at houtside
  cases houtside

/-- Without such a line, the code ends ahead of the empty line in front of what is not indented. -/
theorem stubInner_of_none (hnone : language.target.backend.blockEnd = none)
    {lines : List (List Char)} (h : ∀ line ∈ lines, language.isInside line = true)
    {stop : List Char} (hstop : language.isInside stop = false) (more : List (List Char)) :
    language.stubInner (lines ++ stop :: more) = lines.dropLast := by
  rw [stubInner, hnone]
  exact congrArg List.dropLast (takeWhile_append_stop h hstop)

/-! ## Programs -/

/-- A program for a test case has the code in its stub, between the signature and what ends it. -/
theorem exists_stubHead {ctx : Context} {body : String} {test : TestCase} {caseNo : Nat}
    {literals : List Literal} {program : List Step} (hbody : Text.isBlankText body = false)
    (h : language.target.style.program language.target.backend ctx body test caseNo literals =
      .ok program) :
    ∃ head, language.stubHead ctx = .ok head ∧
      head ++ [.indent, .block body, .dedent] ++
        (language.target.backend.blockEnd.map Step.line).toList ++ ([.blank] ++
          language.target.style.support ++ [.blank] ++ language.target.backend.openMain) <+:
        program := by
  obtain ⟨stub, hstub, hprogram⟩ := Stub.exists_stub_of_case h
  rw [hbody] at hstub
  obtain ⟨doc, opening, inner, hdoc, hopening, hinner, rfl⟩ := Backend.stub_eq_ok hstub
  cases hinner
  refine ⟨_, Compiled.bind_eq_ok.2 ⟨doc, hdoc, Compiled.bind_eq_ok.2 ⟨opening, hopening, rfl⟩⟩, ?_⟩
  simpa using hprogram

theorem depth_stubHead {ctx : Context} {head : List Step} (h : language.stubHead ctx = .ok head) :
    Step.depthAfter 0 head = language.unitDepth ∧
      ∃ steps opening, head = steps ++ [.line opening] := by
  obtain ⟨doc, hdoc, h⟩ := Compiled.bind_eq_ok.1 h
  obtain ⟨opening, hopening, h⟩ := Compiled.bind_eq_ok.1 h
  cases h
  obtain ⟨texts, rfl⟩ := Stub.exists_docLines hdoc
  refine ⟨?_, _, _, rfl⟩
  rw [Step.depthAfter_append, Step.depthAfter_append, (Stub.depth_ahead language).2.2,
    Step.depthAfter_lines]
  rfl

theorem written_code {head : List Step} (hdepth : Step.depthAfter 0 head = language.unitDepth)
    (body : String) :
    Writer.written language.target.backend.indentUnit 0 (head ++ [.indent, .block body, .dedent]) =
      Writer.written language.target.backend.indentUnit 0 head ++
        (blockLines body).map language.insideLine := by
  rw [Writer.written_append _ _ _ (by simp), hdepth, ← bodyLines_eq]
  rfl

/-- A line that ends the block stands behind the code. -/
theorem codeInStub_of_mark {head program : List Step} {body mark : String}
    (hdepth : Step.depthAfter 0 head = language.unitDepth)
    (hmark : language.target.backend.blockEnd = some mark)
    (hprogram : head ++ [.indent, .block body, .dedent] ++ [.line mark] <+: program) :
    let unit := language.target.backend.indentUnit
    ∃ behind, Text.pieces '\n' (layout unit program).toList =
        Writer.written unit 0 head ++ behind ∧
      language.stubInner behind = (blockLines body).map language.insideLine := by
  intro unit
  obtain ⟨more, rfl⟩ := hprogram
  have honeLine : Text.OneLine mark := by
    cases language <;> cases hmark <;> decide
  have hlast : Writer.written unit language.unitDepth [.line mark] =
      [(Writer.indented unit language.unitDepth mark).toList] :=
    language.written_lines language.unitDepth (List.forall_mem_singleton.2 honeLine)
  have hinner : Step.depthAfter 0 (head ++ [.indent, .block body, .dedent]) =
      language.unitDepth := by
    rw [Step.depthAfter_append, hdepth]
    rfl
  obtain ⟨rest, hrest⟩ := Writer.written_prefix_layout unit
    (head ++ [.indent, .block body, .dedent] ++ [.line mark]) more
  rw [Writer.written_append _ _ _ (by simp), hinner, hlast, written_code hdepth,
    List.append_assoc, List.append_assoc] at hrest
  exact ⟨_, hrest.symm, stubInner_of_mark hmark _ rest⟩

theorem endsBlank_concat {writer : Writer} {lines : List String} {last : String}
    (h : writer.lines = lines ++ [last]) (hne : lines ≠ []) (hlast : Text.OneLine last) :
    writer.endsBlank = last.isEmpty := by
  obtain ⟨first, rest, hreverse⟩ := List.exists_cons_of_ne_nil (mt List.reverse_eq_nil_iff.1 hne)
  have hends : Writer.endsLine last = false :=
    decide_eq_false fun hfeed => hlast (List.mem_of_getLast? hfeed)
  simp [Writer.endsBlank, h, hreverse, hends]

/-- Two empty lines that may be left out are one at most. -/
theorem lines_blanks {writer : Writer} {lines : List String} {last : String}
    (h : writer.lines = lines ++ [last]) (hne : lines ≠ []) (hlast : Text.OneLine last) :
    (writer.run [.blank, .blank]).lines =
      writer.lines ++ if last = "" then [] else [""] := by
  have hwritten : writer.lines.isEmpty = false := by simp [h]
  have hfirst : writer.blank.lines = writer.lines ++ if last = "" then [] else [""] := by
    rw [Writer.blank, hwritten, endsBlank_concat h hne hlast]
    by_cases hempty : last = "" <;> simp [hempty]
  have hsecond : writer.blank.blank = writer.blank := by
    have hends : writer.blank.endsBlank = true := by
      by_cases hempty : last = ""
      · rw [if_pos hempty, List.append_nil, h] at hfirst
        rw [endsBlank_concat hfirst hne hlast, hempty]
        rfl
      · rw [if_neg hempty] at hfirst
        exact endsBlank_concat hfirst (by simp [h]) (by decide)
    rw [Writer.blank, hends, Bool.or_true, if_pos rfl]
  show writer.blank.blank.lines = _
  rw [hsecond, hfirst]

theorem lines_code {head : List Step} (hdepth : Step.depthAfter 0 head = language.unitDepth)
    (body : String) :
    let unit := language.target.backend.indentUnit
    let start : Writer := { indentUnit := unit }
    (start.run (head ++ [.indent, .block body, .dedent])).lines = (start.run head).lines ++
      (blockLines body).map (Writer.indented unit (language.unitDepth + 1)) := by
  intro unit start
  have hblock (writer : Writer) : (writer.run [.indent, .block body, .dedent]).lines =
      writer.lines ++ (blockLines body).map
        (Writer.indented writer.indentUnit (writer.depth + 1)) := by
    simp only [Writer.run, List.foldl_cons, List.foldl_nil, Writer.step, Writer.foldl_line]
  rw [Writer.run_append, hblock, Writer.indentUnit_run, Writer.depth_run, hdepth]

/-- Behind the code of Python, at most one empty line stands ahead of the entry point. -/
theorem written_entry_python {head : List Step} {body : String}
    (hbody : Text.isBlankText body = false) (hdepth : Step.depthAfter 0 head = python.unitDepth)
    (hhead : ∃ steps opening, head = steps ++ [.line opening]) :
    let unit := python.target.backend.indentUnit
    Writer.written unit 0 (head ++ [.indent, .block body, .dedent] ++ ([.blank] ++
        python.target.style.support ++ [.blank] ++ python.target.backend.openMain)) =
      Writer.written unit 0 head ++ (blockLines body).map python.insideLine ++
        (if (blockLines body).getLast? = some "" then [] else [[]]) ++
        ["if __name__ == \"__main__\":".toList] := by
  intro unit
  let start : Writer := { indentUnit := unit }
  obtain ⟨init, last, hbodyLines⟩ := (List.eq_nil_or_concat (blockLines body)).resolve_left
    (Text.blockLines_ne_nil hbody)
  rw [List.concat_eq_append] at hbodyLines
  have hlast : Text.OneLine last := Text.oneLine_blockLines body last (by simp [hbodyLines])
  have hlines : (start.run (head ++ [.indent, .block body, .dedent])).lines =
      ((start.run head).lines ++ init.map (Writer.indented unit 1)) ++
        [Writer.indented unit 1 last] := by
    rw [lines_code hdepth, hbodyLines, List.map_append, List.append_assoc]
    rfl
  have hnonempty : (start.run head).lines ++ init.map (Writer.indented unit 1) ≠ [] := by
    obtain ⟨steps, opening, rfl⟩ := hhead
    rw [Writer.run_append]
    simp [Writer.run, Writer.step, Writer.line]
  -- an empty line of code is written without its indentation
  have hempty : Writer.indented unit 1 last = "" ↔ (blockLines body).getLast? = some "" := by
    rw [hbodyLines, List.getLast?_concat, Option.some_inj]
    constructor
    · intro h
      have hchars := (unindent_insideLine last).symm.trans
        (congrArg (fun text => python.unindent text.toList) h)
      exact String.toList_eq_nil_iff.1 hchars
    · rintro rfl
      rfl
  -- so the first of the empty lines behind it is written only if the code does not end in one
  have hblanks : Writer.written unit 0 (head ++ [.indent, .block body, .dedent] ++
      [.blank, .blank]) = Writer.written unit 0 (head ++ [.indent, .block body, .dedent]) ++
        if (blockLines body).getLast? = some "" then [] else [[]] := by
    rw [Writer.written, Writer.run_append,
      lines_blanks hlines hnonempty (python.oneLine_indented 1 hlast), List.flatMap_append]
    refine congrArg (Writer.written unit 0 _ ++ ·) ?_
    by_cases h : (blockLines body).getLast? = some ""
    · rw [if_pos h, if_pos (hempty.2 h)]
      rfl
    · rw [if_neg h, if_neg (mt hempty.1 h)]
      rfl
  have hentry : Writer.written unit 0 (head ++ [.indent, .block body, .dedent] ++
      [.blank, .blank] ++ python.target.backend.openMain) =
        Writer.written unit 0 (head ++ [.indent, .block body, .dedent] ++ [.blank, .blank]) ++
          ["if __name__ == \"__main__\":".toList] := by
    have hinner : Step.depthAfter 0 (head ++ [.indent, .block body, .dedent] ++
        [.blank, .blank]) = 0 := by
      rw [Step.depthAfter_append, Step.depthAfter_append, hdepth]
      rfl
    rw [Writer.written_append _ _ _ (by decide), hinner]
    exact congrArg _ (by decide)
  rw [← written_code hdepth, ← hblanks, ← hentry]
  simp only [List.append_assoc]
  rfl

theorem codeInStub_python {head program : List Step} {body : String}
    (hbody : Text.isBlankText body = false) (hdepth : Step.depthAfter 0 head = python.unitDepth)
    (hhead : ∃ steps opening, head = steps ++ [.line opening])
    (hprogram : head ++ [.indent, .block body, .dedent] ++ ([.blank] ++
      python.target.style.support ++ [.blank] ++ python.target.backend.openMain) <+: program) :
    let unit := python.target.backend.indentUnit
    ∃ behind, Text.pieces '\n' (layout unit program).toList =
        Writer.written unit 0 head ++ behind ∧
      python.stubInner behind = (if (blockLines body).getLast? = some "" then
        (blockLines body).dropLast else blockLines body).map python.insideLine := by
  intro unit
  obtain ⟨more, rfl⟩ := hprogram
  obtain ⟨rest, hrest⟩ := Writer.written_prefix_layout unit _ more
  rw [written_entry_python hbody hdepth hhead, List.append_assoc, List.append_assoc,
    List.append_assoc] at hrest
  refine ⟨_, hrest.symm, ?_⟩
  have hinside : ∀ line ∈ (blockLines body).map python.insideLine ++
      (if (blockLines body).getLast? = some "" then [] else [[]]), python.isInside line = true := by
    refine List.forall_mem_append.2
      ⟨List.forall_mem_map.2 fun text _ => isInside_insideLine text, ?_⟩
    split
    · simp
    · exact List.forall_mem_singleton.2 rfl
  rw [← List.append_assoc, List.singleton_append,
    stubInner_of_none rfl hinside (by decide)]
  split
  · rw [List.append_nil, List.map_dropLast]
  · exact List.dropLast_concat

/-- **The code in a program**: nothing is lost but what is not kept. -/
theorem codeInStub_eq {ctx : Context} {body : String} {test : TestCase} {caseNo : Nat}
    {literals : List Literal} {program : List Step} (hbody : Text.isBlankText body = false)
    (h : language.target.style.program language.target.backend ctx body test caseNo literals =
      .ok program) :
    let unit := language.target.backend.indentUnit
    ∃ head, language.stubHead ctx = .ok head ∧ Writer.written unit 0 head <+:
      Text.pieces '\n' (layout unit program).toList ∧
      language.codeInStub ctx (layout unit program) =
        .ok (language.keptLines (Text.splitLines body)) := by
  intro unit
  obtain ⟨head, hhead, hprogram⟩ := exists_stubHead hbody h
  obtain ⟨hdepth, hlast⟩ := depth_stubHead hhead
  refine ⟨head, hhead, ?_⟩
  -- both kinds of stubs are read back in the same way, once it is known where they end
  have hread {behind : List (List Char)} {lines : List String}
      (hbehind : Text.pieces '\n' (layout unit program).toList =
        Writer.written unit 0 head ++ behind)
      (hinner : language.stubInner behind = lines.map language.insideLine)
      (hkept : lines.map String.toList = language.keptLines (Text.splitLines body)) :
      Writer.written unit 0 head <+: Text.pieces '\n' (layout unit program).toList ∧
        language.codeInStub ctx (layout unit program) =
          .ok (language.keptLines (Text.splitLines body)) := by
    refine ⟨⟨behind, hbehind.symm⟩, ?_⟩
    have hlines : (lines.map language.insideLine).map language.unindent =
        lines.map String.toList := by
      rw [List.map_map]
      exact List.map_congr_left fun text _ => unindent_insideLine text
    simp only [codeInStub, hhead, Compiled.ok_bind]
    rw [hbehind, List.drop_left, hinner, hlines, hkept]
    rfl
  have hblock : (blockLines body).map String.toList = (Text.splitLines body).map Text.trimmed := by
    rw [Text.blockLines_eq, List.map_map]
    exact List.map_congr_left fun line _ => String.toList_ofList
  cases hmark : language.target.backend.blockEnd with
  | some mark =>
    rw [hmark] at hprogram
    obtain ⟨behind, hbehind, hinner⟩ := codeInStub_of_mark hdepth hmark
      ((List.prefix_append _ _).trans hprogram)
    refine hread hbehind hinner ?_
    rw [keptLines, hmark, if_neg (by simp), hblock]
  | none =>
    -- only the blocks of Python end without a line
    obtain rfl : language = python := by cases language <;> first | rfl | cases hmark
    rw [hmark] at hprogram
    obtain ⟨behind, hbehind, hinner⟩ :=
      codeInStub_python hbody hdepth hlast (by simpa using hprogram)
    refine hread hbehind hinner ?_
    rw [keptLines, ← hblock, List.getLast?_map]
    by_cases hempty : (blockLines body).getLast? = some ""
    · rw [if_pos hempty, if_pos ⟨rfl, by rw [hempty]; rfl⟩, List.map_dropLast]
    · rw [if_neg hempty, if_neg]
      rintro ⟨-, hnil⟩
      obtain ⟨last, hgetLast, hnil⟩ := Option.map_eq_some_iff.1 hnil
      exact hempty (hgetLast.trans (congrArg some (String.toList_eq_nil_iff.1 hnil)))

/-- Nothing is lost where no line ends in white space, and in Python the last line is not empty. -/
theorem keptLines_eq_iff {lines : List (List Char)} : language.keptLines lines = lines ↔
    (∀ line ∈ lines, Text.trimmed line = line) ∧
      (language.target.backend.blockEnd = none → lines.getLast? ≠ some []) := by
  have hmap : lines.map Text.trimmed = lines ↔ ∀ line ∈ lines, Text.trimmed line = line := by
    have hinj := List.map_inj_left (l := lines) (f := Text.trimmed) (g := fun line => line)
    rwa [List.map_id'] at hinj
  rw [← hmap, keptLines]
  split
  · next hlast =>
    obtain ⟨hnone, hempty⟩ := hlast
    constructor
    · intro hdropped
      -- an empty line is lost, so the lengths differ
      have hlength := congrArg List.length hdropped
      obtain ⟨init, hinit⟩ := List.getLast?_eq_some_iff.1 hempty
      have hkept := congrArg List.length hinit
      simp only [List.length_dropLast, List.length_map, List.length_append,
        List.length_singleton] at hlength hkept
      omega
    · rintro ⟨hkept, hlast⟩
      rw [hkept] at hempty
      exact absurd hempty (hlast hnone)
  · next hlast =>
    refine ⟨fun hkept => ⟨hkept, fun hnone hempty => hlast ⟨hnone, ?_⟩⟩, fun h => h.1⟩
    rwa [hkept]

end Language

namespace Materializer

/-- **What is in the stub.** For each language and a body that is not blank, the program of a test
case goes on behind the signature of the stub with the code. What is read back there is the code
without white space at the ends of its lines, in Python also without one empty line at its end. It
is the code as it was given exactly where there is no such white space and no such line. -/
theorem code_in_stub {materializer : Materializer} {signature : Signature} {language : Language}
    {body : String} {test : TestCase} {caseNo : Nat} {code : String}
    (hbody : Text.isBlankText body = false)
    (hcode : materializer.materialize signature language body test caseNo = .ok code) :
    let ctx : Context := ⟨signature, materializer.registry, language, .materialized⟩
    let given := Text.splitLines body
    (∃ head, language.stubHead ctx = .ok head ∧
      Writer.written language.target.backend.indentUnit 0 head <+:
        Text.pieces '\n' code.toList) ∧
    language.codeInStub ctx code = .ok (language.keptLines given) ∧
    (language.codeInStub ctx code = .ok given ↔ (∀ line ∈ given, Text.trimmed line = line) ∧
      (language.target.backend.blockEnd = none → given.getLast? ≠ some [])) := by
  intro ctx given
  obtain ⟨literals, program, -, hprogram, rfl⟩ := materialize_eq_ok hcode
  obtain ⟨head, hhead, hprefix, hread⟩ := Language.codeInStub_eq hbody hprogram
  refine ⟨⟨head, hhead, hprefix⟩, hread, ?_⟩
  rw [hread, Except.ok.injEq]
  exact Language.keptLines_eq_iff

/-- A body of Python whose lines end with carriage returns and spaces, and the last of which is
empty. -/
theorem code_in_stub_python :
    let materializer : Materializer :=
      ⟨⟨Registry.standardRows, Language.all, false⟩, Language.all, Language.all⟩
    let signature : Signature := ⟨[], .scalar .integer⟩
    let test : TestCase := ⟨"a", [], .number (.int 1), true⟩
    let body := "x = 1 \r\n\nreturn x\n\n"
    Text.isBlankText body = false ∧
    ∃ code, materializer.materialize signature .python body test 1 = .ok code ∧
      Text.splitLines body = ["x = 1 ", "", "return x", ""].map String.toList ∧
      Language.python.codeInStub
        ⟨signature, materializer.registry, .python, .materialized⟩ code =
          .ok (["x = 1", "", "return x"].map String.toList) := by
  intro materializer signature test body
  have hfits : test.Fits signature := ⟨rfl, by simp [signature, test]⟩
  obtain ⟨code, hcode⟩ : ∃ code,
      materializer.materialize signature .python body test 1 = .ok code :=
    (exists_materialize_iff (covers_standard false .python) signature body).2 hfits
  have hbody : Text.isBlankText body = false := by decide +kernel
  obtain ⟨-, hread, -⟩ := code_in_stub hbody hcode
  refine ⟨hbody, code, hcode, by decide +kernel, hread.trans ?_⟩
  decide +kernel

/-- The code in a stub is not the code as it was given: in a text over two lines, the spaces at the
end of the first are lost. -/
theorem code_in_stub_not_as_given :
    let materializer : Materializer :=
      ⟨⟨Registry.standardRows, Language.all, false⟩, Language.all, Language.all⟩
    let signature : Signature := ⟨[], .scalar .string⟩
    let test : TestCase := ⟨"t", [], .string "a  \nb", false⟩
    let body := "return `a  \nb`;"
    Signature.ofSource "string -> return" = .ok signature ∧ Text.isBlankText body = false ∧
    ∃ code, materializer.materialize signature .javaScript body test 1 = .ok code ∧
      Text.splitLines body = ["return `a  ", "b`;"].map String.toList ∧
      Language.javaScript.codeInStub
        ⟨signature, materializer.registry, .javaScript, .materialized⟩ code ≠
          .ok (Text.splitLines body) := by
  intro materializer signature test body
  have hfits : test.Fits signature := ⟨rfl, by simp [signature, test]⟩
  obtain ⟨code, hcode⟩ : ∃ code,
      materializer.materialize signature .javaScript body test 1 = .ok code :=
    (exists_materialize_iff (covers_standard false .javaScript) signature body).2 hfits
  have hbody : Text.isBlankText body = false := by decide +kernel
  obtain ⟨literals, program, -, hprogram, rfl⟩ := materialize_eq_ok hcode
  obtain ⟨-, -, -, hread⟩ := Language.codeInStub_eq hbody hprogram
  refine ⟨by decide +kernel, hbody, _, hcode, by decide +kernel, ?_⟩
  rw [hread]
  decide +kernel

end Materializer

end StructuredCall
