import StructuredCall.Generator
import StructuredCall.Proofs.Program.Outline
import StructuredCall.Proofs.Word

/-!
# The names in a program

What a program binds is read off its lines and their depths. A line binds names in one of three
forms, and which of them a language has is all that the reader knows about it
(`Language.definitions`, `Language.locals`):

* `Binder.assigned` — names in front of a mark, as in `a, b := f()`;
* `Binder.announced` — a name behind a keyword, as in `let a = 1`;
* `Binder.typed` — a name between a type and a mark, as in `int a = 1;`.

The candidate's code is a block inside the stub and is not read.

The parts of a program are read one by one: `Language.Defines` is about steps outside of the entry
point, `Language.Binds` about steps inside.
-/

namespace StructuredCall

/-! ## Lines and their depths -/

namespace Step

/-- The depth after some steps. -/
def depthAfter (depth : Nat) : List Step → Nat
  | [] => depth
  | .line _ :: steps | .block _ :: steps | .blank :: steps => depthAfter depth steps
  | .indent :: steps => depthAfter (depth + 1) steps
  | .dedent :: steps => depthAfter (depth - 1) steps

/-- The lines of steps, each with its depth. -/
def placed (depth : Nat) : List Step → List (Nat × List Char)
  | [] => []
  | .line text :: steps => (depth, text.toList) :: placed depth steps
  | .block _ :: steps | .blank :: steps => placed depth steps
  | .indent :: steps => placed (depth + 1) steps
  | .dedent :: steps => placed (depth - 1) steps

end Step

/-! ## Names in a line -/

namespace Binder

/-- The identifiers in a text, in order. -/
def identifiers (cs : List Char) : List String :=
  ((cs.splitOnP fun c => !Name.isTail c).map String.ofList).filter Name.isIdentifier

/-- The identifier at the end of a text, when a space is before it. -/
def lastIdentifier (cs : List Char) : List String :=
  let reversed := cs.reverse.dropWhile (· = ' ')
  let name := String.ofList (reversed.takeWhile Name.isTail).reverse
  if Name.isIdentifier name && (reversed.dropWhile Name.isTail).head? = some ' ' then [name] else []

/-- Characters of a list of names. -/
def isListed (c : Char) : Bool :=
  Name.isTail c || c = ',' || c = ' '

/-- The names in front of a mark. -/
def assigned (mark cs : List Char) : List String :=
  if cs.head?.any Name.isHead && mark.isPrefixOf (cs.dropWhile isListed) then
    identifiers (cs.takeWhile isListed)
  else []

/-- The name behind one of some keywords. -/
def announced (keywords : List String) (cs : List Char) : List String :=
  (keywords.filter (·.toList.isPrefixOf cs)).map fun keyword =>
    String.ofList ((cs.drop keyword.length).takeWhile Name.isTail)

/-- The characters that end the head of a declaration with a type. -/
def endsHead (c : Char) : Bool :=
  c = '(' || c = '=' || c = ';'

/-- The name between a type and one of some marks. -/
def typed (marks : List Char) (cs : List Char) : List String :=
  match cs.dropWhile (!endsHead ·) with
  | mark :: _ =>
    if mark ∈ marks && cs.head? ≠ some ' ' then lastIdentifier (cs.takeWhile (!endsHead ·)) else []
  | [] => []

/-- The names of parameters with types. -/
def parameters (cs : List Char) : List String :=
  ((((cs.dropWhile (· ≠ '(')).drop 1).takeWhile (· ≠ ')')).splitOn ',').flatMap lastIdentifier

end Binder

/-! ## Names in a language -/

namespace Language

open Binder

/-- The level of functions: inside a class, where there is one. -/
def unitDepth : Language → Nat
  | java | cSharp => 1
  | _ => 0

/-- The names that a line of the unit defines. -/
def definitions (language : Language) (cs : List Char) : List String :=
  match language with
  | python =>
    if "from ".toList.isPrefixOf cs then (identifiers cs).drop 3
    else announced ["def ", "import "] cs ++ assigned ['=', ' '] cs
  | javaScript | typeScript =>
    announced ["function ", "import * as ", "const ", "let ", "var "] cs
  | php => announced ["function "] cs
  | swift => announced ["func ", "let ", "var "] cs
  | go => announced ["func ", "const ", "var "] cs
  | r => assigned ['<', '-', ' '] cs
  | java | cpp | cSharp => typed ['(', '=', ';'] cs

/-- The name that a language ignores in a declaration. -/
def isBlank (language : Language) (name : String) : Bool :=
  (language = go || language = swift) && name = "_"

/-- The line of R that captures an output, up to the code that gives it. What this code assigns is
assigned in the same scope. -/
def capturing : String :=
  "captured <- paste(capture.output("

/-- The names that a line of a function's body binds. -/
def locals (language : Language) (cs : List Char) : List String :=
  let names := match language with
    | python => assigned ['=', ' '] cs
    | javaScript | typeScript => announced ["const ", "let ", "var "] cs
    | php => if cs.head? = some '$' then assigned ['=', ' '] cs.tail else []
    | swift => announced ["let ", "var "] cs
    | go =>
      match assigned [':', '=', ' '] cs with
      | [] => announced ["const ", "var "] cs
      | names => names
    | r =>
      assigned ['<', '-', ' '] cs ++
        if capturing.toList.isPrefixOf cs then
          assigned ['<', '-', ' '] (cs.drop capturing.length)
        else []
    | java | cpp | cSharp => typed ['=', ';'] cs
  names.filter (!language.isBlank ·)

/-! ## Names in a program -/

/-- The name of the entry point. Python has none: the unit itself is entered. -/
def entryName? : Language → Option String
  | python => none
  | cSharp => some "Main"
  | _ => some "main"

/-- Whether a line of the unit opens the entry point. -/
def opensEntry (language : Language) (cs : List Char) : Bool :=
  match language.entryName? with
  | some name => language.definitions cs = [name]
  | none => cs = "if __name__ == \"__main__\":".toList

/-- The names that lines define on the level of functions. -/
def definedNames (language : Language) (lines : List (Nat × List Char)) : List String :=
  (lines.filter (·.1 = language.unitDepth)).flatMap (language.definitions ·.2)

/-- The names that a program defines on the level of its functions. -/
def unitNames (language : Language) (steps : List Step) : List String :=
  language.definedNames (Step.placed 0 steps)

/-- Whether a line at a depth inside the entry point is in its scope. Blocks of Python have no
scope of their own. -/
def inScope (language : Language) (depth : Nat) : Bool :=
  if language = python then depth > language.unitDepth else depth = language.unitDepth + 1

/-- The names that lines of the entry point bind in its scope. -/
def localNames (language : Language) (lines : List (Nat × List Char)) : List String :=
  (lines.filter (language.inScope ·.1)).flatMap (language.locals ·.2)

/-- Whether a line at a depth opens the entry point. -/
def opensAt (language : Language) (line : Nat × List Char) : Bool :=
  line.1 = language.unitDepth && language.opensEntry line.2

/-- The line that opens the entry point, and the lines after it. -/
def entryLines (language : Language) (steps : List Step) : List (Nat × List Char) :=
  (Step.placed 0 steps).dropWhile (!language.opensAt ·)

/-- The names that are bound in the scope of the entry point: its parameters and what its lines
bind. In Python the names of the unit are in the same scope. -/
def scopeNames (language : Language) (steps : List Step) : List String :=
  match language.entryLines steps with
  | [] => []
  | opening :: lines =>
    (if language = python then language.unitNames steps else []) ++ parameters opening.2 ++
      language.localNames lines

end Language

/-! ## Reading steps -/

namespace Step

theorem depthAfter_append (depth : Nat) (steps more : List Step) :
    depthAfter depth (steps ++ more) = depthAfter (depthAfter depth steps) more := by
  fun_induction depthAfter depth steps <;> simp_all [depthAfter]

theorem placed_append (depth : Nat) (steps more : List Step) :
    placed depth (steps ++ more) = placed depth steps ++ placed (depthAfter depth steps) more := by
  fun_induction depthAfter depth steps <;> simp_all [placed]

theorem depthAfter_lines (depth : Nat) (texts : List String) :
    depthAfter depth (texts.map .line) = depth := by
  induction texts with
  | nil => rfl
  | cons text texts ih => exact ih

theorem placed_lines (depth : Nat) (texts : List String) :
    placed depth (texts.map .line) = texts.map fun text => (depth, text.toList) := by
  induction texts with
  | nil => rfl
  | cons text texts ih => exact congrArg _ ih

/-! Steps that are known are spelled: the lines in them become lists of characters, which are closed
and can be decided about. The characters of a literal are those that it is written with
(`String.toList_ofList`), so none of them is decoded. -/

/-- A step that has the text of its line as characters; what is in a block is left out. -/
inductive Spelled
  | line (cs : List Char)
  | block
  | blank
  | indent
  | dedent

def spell : Step → Spelled
  | .line text => .line text.toList
  | .block _ => .block
  | .blank => .blank
  | .indent => .indent
  | .dedent => .dedent

@[simp] theorem spell_blank : spell .blank = .blank := rfl

@[simp] theorem spell_indent : spell .indent = .indent := rfl

@[simp] theorem spell_dedent : spell .dedent = .dedent := rfl

theorem map_spell_line {text : String} {cs : List Char} {steps : List Step} {rest : List Spelled}
    (htext : text.toList = cs) (h : steps.map spell = rest) :
    (.line text :: steps).map spell = .line cs :: rest := by
  rw [List.map_cons, spell, htext, h]

theorem map_spell_cons {step : Step} {first : Spelled} {steps : List Step} {rest : List Spelled}
    (hstep : spell step = first) (h : steps.map spell = rest) :
    (step :: steps).map spell = first :: rest := by
  rw [List.map_cons, hstep, h]

/-- **Known steps are spelled** one by one. -/
theorem map_spell {steps : List Step} {spelled : List Spelled}
    (h : steps.map spell = spelled := by
      repeat' first
        | with_reducible exact String.toList_ofList
        | with_reducible exact Eq.refl (String.toList _)
        | apply Step.map_spell_line
        | apply Step.map_spell_cons
        | with_reducible exact Step.spell_blank
        | with_reducible exact Step.spell_indent
        | with_reducible exact Step.spell_dedent
        | exact List.map_nil) : steps.map spell = spelled :=
  h

/-- The lines of spelled steps, each with its depth. -/
def Spelled.placed (depth : Nat) : List Spelled → List (Nat × List Char)
  | [] => []
  | .line cs :: steps => (depth, cs) :: placed depth steps
  | .block :: steps | .blank :: steps => placed depth steps
  | .indent :: steps => placed (depth + 1) steps
  | .dedent :: steps => placed (depth - 1) steps

theorem placed_of_spelled {steps : List Step} {spelled : List Spelled}
    (h : steps.map spell = spelled) (depth : Nat) :
    placed depth steps = Spelled.placed depth spelled := by
  subst h
  fun_induction placed depth steps with
  | case1 => rfl
  | case2 depth text steps ih => exact congrArg _ ih
  | case3 _ _ _ ih | case4 _ _ ih | case5 _ _ ih | case6 _ _ ih => exact ih

theorem depth_step (writer : Writer) (step : Step) :
    (writer.step step).depth = depthAfter writer.depth [step] := by
  cases step with
  | block text => rw [Writer.step, Writer.foldl_line]; rfl
  | blank =>
    rw [Writer.step, Writer.blank]
    split <;> rfl
  | _ => rfl

theorem lines_run_subset (writer : Writer) (steps : List Step) :
    writer.lines ⊆ (writer.run steps).lines := by
  induction steps generalizing writer with
  | nil => exact fun _ h => h
  | cons step steps ih =>
    refine List.Subset.trans ?_ (ih (writer.step step))
    cases step with
    | line text => exact List.subset_append_left _ _
    | block text =>
      rw [Writer.step, Writer.foldl_line]
      exact List.subset_append_left _ _
    | blank =>
      rw [Writer.step, Writer.blank]
      split
      · exact fun _ h => h
      · exact List.subset_append_left _ _
    | indent | dedent => exact fun _ h => h

/-- **What is read is written**: a line of the steps is a line of the text, at its depth. -/
theorem written_of_placed {writer : Writer} {steps : List Step} {depth : Nat} {cs : List Char}
    (h : (depth, cs) ∈ placed writer.depth steps) :
    Writer.indented writer.indentUnit depth (String.ofList cs) ∈ (writer.run steps).lines := by
  induction steps generalizing writer with
  | nil => cases h
  | cons step steps ih =>
    rw [← List.singleton_append, placed_append, ← depth_step, List.mem_append] at h
    rcases h with h | h
    · cases step with
      | line =>
        cases List.mem_singleton.1 h
        rw [String.ofList_toList]
        exact lines_run_subset (writer.line _) steps
          (List.mem_append_right _ (List.mem_singleton_self _))
      | _ => cases h
    · rw [← Writer.indentUnit_step writer step]
      exact ih h

end Step

namespace Language

variable (language : Language)

theorem definedNames_append (lines more : List (Nat × List Char)) :
    language.definedNames (lines ++ more) =
      language.definedNames lines ++ language.definedNames more := by
  simp [definedNames]

theorem definedNames_cons (depth : Nat) (cs : List Char) (lines : List (Nat × List Char)) :
    language.definedNames ((depth, cs) :: lines) =
      (if depth = language.unitDepth then language.definitions cs else []) ++
        language.definedNames lines := by
  simp only [definedNames, List.filter_cons, decide_eq_true_eq]
  split <;> rfl

theorem localNames_append (lines more : List (Nat × List Char)) :
    language.localNames (lines ++ more) =
      language.localNames lines ++ language.localNames more := by
  simp [localNames]

theorem localNames_cons (depth : Nat) (cs : List Char) (lines : List (Nat × List Char)) :
    language.localNames ((depth, cs) :: lines) =
      (if language.inScope depth then language.locals cs else []) ++ language.localNames lines := by
  simp only [localNames, List.filter_cons]
  split <;> rfl

/-! ## Reading in parts -/

/-- Steps that lead from one depth to another, define the names, and do not open the entry point. -/
structure Defines (language : Language) (start stop : Nat) (steps : List Step)
    (names : List String) : Prop where
  depth : Step.depthAfter start steps = stop
  names : language.definedNames (Step.placed start steps) = names
  closed : ∀ line ∈ Step.placed start steps, language.opensAt line = false

namespace Defines

variable {language : Language} {start middle stop : Nat} {steps more : List Step}
  {names others : List String}

theorem of_placed {lines : List (Nat × List Char)} (h : Step.placed start steps = lines)
    (hdepth : Step.depthAfter start steps = stop)
    (hread : language.definedNames lines = names ∧ lines.any language.opensAt = false) :
    language.Defines start stop steps names :=
  ⟨hdepth, h ▸ hread.1, by simpa [h] using hread.2⟩

theorem append (h : language.Defines start middle steps names)
    (h' : language.Defines middle stop more others) :
    language.Defines start stop (steps ++ more) (names ++ others) where
  depth := by rw [Step.depthAfter_append, h.depth, h'.depth]
  names := by rw [Step.placed_append, definedNames_append, h.depth, h.names, h'.names]
  closed := by
    rw [Step.placed_append, h.depth]
    exact List.forall_mem_append.2 ⟨h.closed, h'.closed⟩

/-- Lines below the level of functions. -/
theorem of_deep {texts : List String} (hdeep : start ≠ language.unitDepth) :
    language.Defines start start (texts.map .line) [] where
  depth := Step.depthAfter_lines start texts
  names := by
    rw [Step.placed_lines, definedNames, List.filter_eq_nil_iff.2, List.flatMap_nil]
    simp [hdeep]
  closed := by
    rw [Step.placed_lines]
    simp [opensAt, hdeep]

/-- Lines that define nothing, in a language where the entry point is defined by its opening. -/
theorem of_plain {texts : List String} {name : String} (hname : language.entryName? = some name)
    (h : ∀ text ∈ texts, language.definitions text.toList = []) :
    language.Defines start start (texts.map .line) [] where
  depth := Step.depthAfter_lines start texts
  names := by
    rw [Step.placed_lines, definedNames, List.flatMap_eq_nil_iff]
    rintro line hline
    obtain ⟨text, htext, rfl⟩ := List.mem_map.1 (List.mem_filter.1 hline).1
    exact h text htext
  closed := by
    rw [Step.placed_lines]
    rintro line hline
    obtain ⟨text, htext, rfl⟩ := List.mem_map.1 hline
    simp [opensAt, opensEntry, hname, h text htext]

end Defines

/-- Steps inside the entry point that lead from one depth to another and bind the names in its
scope. -/
structure Binds (language : Language) (start stop : Nat) (steps : List Step) (names : List String) :
    Prop where
  depth : Step.depthAfter start steps = stop
  deep : ∀ line ∈ Step.placed start steps, language.unitDepth < line.1
  names : language.localNames (Step.placed start steps) = names

namespace Binds

variable {language : Language} {start middle stop : Nat} {steps more : List Step}
  {names others : List String}

theorem of_placed {lines : List (Nat × List Char)} (h : Step.placed start steps = lines)
    (hdepth : Step.depthAfter start steps = stop)
    (hdeep : ∀ line ∈ lines, language.unitDepth < line.1)
    (hnames : language.localNames lines = names) : language.Binds start stop steps names :=
  ⟨hdepth, h ▸ hdeep, h ▸ hnames⟩

theorem append (h : language.Binds start middle steps names)
    (h' : language.Binds middle stop more others) :
    language.Binds start stop (steps ++ more) (names ++ others) where
  depth := by rw [Step.depthAfter_append, h.depth, h'.depth]
  deep := by
    rw [Step.placed_append, h.depth]
    exact List.forall_mem_append.2 ⟨h.deep, h'.deep⟩
  names := by rw [Step.placed_append, localNames_append, h.depth, h.names, h'.names]

protected theorem nil (language : Language) (start : Nat) : language.Binds start start [] [] :=
  ⟨rfl, by simp [Step.placed], rfl⟩

theorem line {text : String} (hstart : language.unitDepth < start)
    (hnames : language.inScope start → language.locals text.toList = names)
    (hout : ¬language.inScope start → names = []) :
    language.Binds start start [.line text] names where
  depth := rfl
  deep := List.forall_mem_singleton.2 hstart
  names := by
    rw [Step.placed, Step.placed, localNames_cons]
    split
    · next hscope =>
      rw [hnames hscope]
      exact List.append_nil _
    · next hscope => exact (hout hscope).symm

/-- A line right inside the entry point. -/
theorem inside {text : String} (h : language.locals text.toList = names) :
    language.Binds (language.unitDepth + 1) (language.unitDepth + 1) [.line text] names :=
  line (Nat.lt_succ_self _) (fun _ => h) fun hout => absurd (by simp [inScope]) hout

/-- Lines that bind nothing in the scope. -/
theorem silent (h : ∀ step ∈ steps, language.Binds start start [step] []) :
    language.Binds start start steps [] := by
  induction steps with
  | nil => exact .nil language start
  | cons step steps ih =>
    obtain ⟨hstep, hsteps⟩ := List.forall_mem_cons.1 h
    exact hstep.append (ih hsteps)

/-- Lines that bind nothing can stand among steps. -/
theorem insert {front back : List Step} {inner : Nat}
    (h : language.Binds start stop (front ++ [] ++ back) names)
    (hfront : Step.depthAfter start front = inner)
    (hsilent : ∀ step ∈ steps, language.Binds inner inner [step] []) :
    language.Binds start stop (front ++ steps ++ back) names := by
  have hsteps := silent hsilent
  obtain ⟨hdepth, hdeep, hnames⟩ := h
  simp only [List.append_nil, Step.depthAfter_append, Step.placed_append, localNames_append,
    List.forall_mem_append, hfront] at hdepth hdeep hnames
  constructor
  · rw [Step.depthAfter_append, Step.depthAfter_append, hfront, hsteps.depth, hdepth]
  · simp only [Step.placed_append, Step.depthAfter_append, hfront, hsteps.depth,
      List.forall_mem_append]
    exact ⟨⟨hdeep.1, hsteps.deep⟩, hdeep.2⟩
  · simp only [Step.placed_append, Step.depthAfter_append, hfront, hsteps.depth, localNames_append,
      hsteps.names, List.append_nil, hnames]

theorem definedNames (h : language.Binds start stop steps names) :
    language.definedNames (Step.placed start steps) = [] := by
  rw [Language.definedNames, List.filter_eq_nil_iff.2, List.flatMap_nil]
  intro line hline
  simpa using (h.deep line hline).ne'

end Binds

end Language

/-! ## Reading lines -/

namespace Name

theorem isTail_of_mem {name : String} (h : isIdentifier name) {c : Char} (hc : c ∈ name.toList) :
    isTail c = true := by
  unfold isIdentifier at h
  split at h
  · cases h
  · next first rest hname =>
    rw [hname] at hc
    obtain ⟨hfirst, hrest⟩ := Bool.and_eq_true_iff.1 h
    rcases List.mem_cons.1 hc with rfl | hc
    · simp [isTail, hfirst]
    · exact List.all_eq_true.1 hrest c hc

theorem not_mem_of_isTail {name : String} (h : isIdentifier name) {c : Char}
    (hc : isTail c = false) : c ∉ name.toList := by
  intro hmem
  rw [isTail_of_mem h hmem] at hc
  cases hc

theorem exists_head {name : String} (h : isIdentifier name) :
    ∃ first rest, name.toList = first :: rest ∧ isHead first = true := by
  unfold isIdentifier at h
  split at h
  · cases h
  · next first rest hname => exact ⟨first, rest, hname, (Bool.and_eq_true_iff.1 h).1⟩

end Name

namespace Binder

open Name (isIdentifier isTail)

theorem takeWhile_name {name : String} (h : isIdentifier name) {c : Char} (hc : isTail c = false)
    (rest : List Char) : (name.toList ++ c :: rest).takeWhile isTail = name.toList := by
  rw [List.takeWhile_append_of_pos fun _ => Name.isTail_of_mem h,
    List.takeWhile_cons_of_neg (by simp [hc]), List.append_nil]

theorem identifiers_name {name : String} (h : isIdentifier name) :
    identifiers (name.toList ++ [' ']) = [name] := by
  have hsplit : (name.toList ++ [' ']).splitOnP (fun c => !isTail c) = [name.toList, []] := by
    rw [List.splitOnP_append_cons_of_forall_mem (by simpa using fun _ => Name.isTail_of_mem h) _
      (by decide)]
    rfl
  have hempty : isIdentifier "" = false := rfl
  simp [identifiers, hsplit, h, hempty]

theorem assigned_name {name : String} (h : isIdentifier name) {m : Char} (hm : isListed m = false)
    (more value : List Char) :
    assigned (m :: more) (name.toList ++ ' ' :: m :: (more ++ value)) = [name] := by
  have hlisted : ∀ c ∈ name.toList ++ [' '], isListed c = true := by
    intro c hc
    rcases List.mem_append.1 hc with hc | hc
    · simp [isListed, Name.isTail_of_mem h hc]
    · rw [List.mem_singleton.1 hc]
      decide
  obtain ⟨first, rest, hname, hfirst⟩ := Name.exists_head h
  rw [List.append_cons]
  unfold assigned
  rw [List.dropWhile_append_of_pos hlisted, List.takeWhile_append_of_pos hlisted,
    List.dropWhile_cons_of_neg (by simp [hm]),
    List.takeWhile_cons_of_neg (by simp [hm]), List.append_nil, identifiers_name h]
  simp [hname, hfirst]

/-- Nothing is assigned when something else than the mark is behind what could be names. -/
theorem assigned_eq_nil {head : List Char} (hhead : head.all isListed = true) {m c : Char}
    (hc : isListed c = false) (hne : m ≠ c) (more rest : List Char) :
    assigned (m :: more) (head ++ c :: rest) = [] := by
  unfold assigned
  rw [List.dropWhile_append_of_pos (List.all_eq_true.1 hhead),
    List.dropWhile_cons_of_neg (by simp [hc]), if_neg]
  simp [hne]

theorem announced_name {keywords : List String} {keyword name : String} (h : isIdentifier name)
    {cs : List Char} {c : Char} (hc : isTail c = false)
    (honly : keywords.filter (fun k => k.toList.isPrefixOf
      (keyword.toList ++ (name.toList ++ c :: cs))) = [keyword]) :
    announced keywords (keyword.toList ++ (name.toList ++ c :: cs)) = [name] := by
  unfold announced
  rw [honly, List.map_singleton, ← String.length_toList, List.drop_left, takeWhile_name h hc,
    String.ofList_toList]

theorem not_endsHead_of_isTail {c : Char} (h : isTail c = true) : endsHead c = false := by
  by_contra hends
  simp only [endsHead, Bool.not_eq_false, Bool.or_eq_true, decide_eq_true_eq] at hends
  rcases hends with (rfl | rfl) | rfl <;> exact absurd h (by decide)

theorem lastIdentifier_name {name : String} (h : isIdentifier name) (type : List Char)
    {pad : List Char} (hpad : pad.all (· = ' ') = true) :
    lastIdentifier (type ++ ' ' :: (name.toList ++ pad)) = [name] := by
  obtain ⟨last, rest, hname⟩ : ∃ last rest, name.toList.reverse = last :: rest := by
    obtain ⟨first, rest, hname, -⟩ := Name.exists_head h
    exact List.exists_cons_of_ne_nil (by simp [hname])
  have htail : ∀ c ∈ name.toList.reverse, isTail c = true := fun c hc =>
    Name.isTail_of_mem h (List.mem_reverse.1 hc)
  have hlast : last ≠ ' ' := by
    rintro rfl
    exact absurd (htail ' ' (by simp [hname])) (by decide)
  have hreverse : (type ++ ' ' :: (name.toList ++ pad)).reverse.dropWhile (· = ' ') =
      name.toList.reverse ++ ' ' :: type.reverse := by
    simp only [List.reverse_append, List.reverse_cons, List.append_assoc, List.singleton_append]
    rw [List.dropWhile_append_of_pos (by simpa using hpad), hname, List.cons_append,
      List.dropWhile_cons_of_neg (by simpa using hlast)]
  unfold lastIdentifier
  dsimp only
  rw [hreverse, List.takeWhile_append_of_pos htail, List.dropWhile_append_of_pos htail,
    List.takeWhile_cons_of_neg (by decide), List.dropWhile_cons_of_neg (by decide)]
  simp [h]

/-- A text that can stand as a type in front of a name. -/
structure IsType (type : String) : Prop where
  unended : type.toList.all (!endsHead ·) = true
  first : ∃ first rest, type.toList = first :: rest ∧ first ≠ ' '

theorem isType_ofList {c : Char} {cs : List Char}
    (h : c ≠ ' ' ∧ (c :: cs).all (!endsHead ·) = true) : IsType (String.ofList (c :: cs)) := by
  refine ⟨?_, c, cs, ?_, h.1⟩ <;> rw [String.toList_ofList]
  exact h.2

theorem typed_name {marks cs : List Char} {type name : String} (hname : isIdentifier name)
    (htype : IsType type) (pad : List Char) (hpad : pad.all (· = ' ') = true) (mark : Char)
    (hmark : mark ∈ marks) (hends : endsHead mark = true) (rest : List Char)
    (hcs : cs = type.toList ++ ' ' :: (name.toList ++ pad) ++ mark :: rest) :
    typed marks cs = [name] := by
  have hhead : ∀ c ∈ type.toList ++ ' ' :: (name.toList ++ pad), !endsHead c := by
    intro c hc
    simp only [List.mem_append, List.mem_cons] at hc
    rcases hc with hc | rfl | hc | hc
    · exact List.all_eq_true.1 htype.unended c hc
    · decide
    · simp [not_endsHead_of_isTail (Name.isTail_of_mem hname hc)]
    · obtain rfl : c = ' ' := by simpa using List.all_eq_true.1 hpad c hc
      decide
  -- a line that starts with a space would declare nothing
  have hspace : cs.head? ≠ some ' ' := by
    obtain ⟨first, more, hfirst, hspace⟩ := htype.first
    simpa [hcs, hfirst] using hspace
  subst hcs
  unfold typed
  rw [List.dropWhile_append_of_pos hhead, List.takeWhile_append_of_pos hhead,
    List.dropWhile_cons_of_neg (by simp [hends]), List.takeWhile_cons_of_neg (by simp [hends]),
    List.append_nil]
  dsimp only
  rw [if_pos, lastIdentifier_name hname _ hpad]
  rw [Bool.and_eq_true, decide_eq_true_eq, decide_eq_true_eq]
  exact ⟨hmark, hspace⟩

/-- Nothing is declared when something else than the marks ends the head. -/
theorem typed_eq_nil {head : List Char} (hhead : head.all (!endsHead ·) = true) {mark : Char}
    (hends : endsHead mark = true) {marks : List Char} (hmark : mark ∉ marks) (rest : List Char) :
    typed marks (head ++ mark :: rest) = [] := by
  unfold typed
  rw [List.dropWhile_append_of_pos (List.all_eq_true.1 hhead),
    List.dropWhile_cons_of_neg (by simp [hends])]
  simp [hmark]

end Binder

end StructuredCall
