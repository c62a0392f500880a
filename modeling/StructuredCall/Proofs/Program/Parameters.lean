import StructuredCall.Proofs.Program.Clash

/-!
# Parameters and arguments

The signature of the stub and its call are read back: what stands in the first pair of parentheses
is cut at the commas outside of other brackets (`Text.arguments?`), and in each piece of a signature
a name is declared, in front of the type or behind it (`Language.parameterName`).

A list of texts is read back if each of them is cut nowhere (`Text.IsArgument`), which holds for
names and for the names of types, even of those with commas, and is preserved when they are put
together.

Main results: `Language.arguments?_signatureLine` and `Language.arguments?_call`.
-/

namespace StructuredCall

namespace Text

/-! ## Reading -/

/-- How many brackets are open behind a character. -/
def bracketDepth (depth : Nat) (c : Char) : Nat :=
  if c = '(' ∨ c = '[' ∨ c = '<' ∨ c = '\x7b' then depth + 1
  else if c = ')' ∨ c = ']' ∨ c = '>' ∨ c = '\x7d' then depth - 1
  else depth

/-- What stands in front of the closing parenthesis, cut at the commas outside of brackets, where
`depth` brackets are open; `none` if there is no closing parenthesis. -/
def cutArguments (depth : Nat) : List Char → Option (List (List Char))
  | [] => none
  | c :: cs =>
    if depth = 0 ∧ c = ')' then some [[]]
    else if depth = 0 ∧ c = ',' then (cutArguments 0 cs).map ([] :: ·)
    else (cutArguments (bracketDepth depth c) cs).map (List.modifyHead (c :: ·))

/-- The pieces in the first pair of parentheses that are not blank, without white space around
them. -/
def arguments? (s : String) : Option (List String) :=
  (cutArguments 0 ((s.toList.dropWhile (· ≠ '(')).drop 1)).map fun pieces =>
    (pieces.filter (!·.all isBlank)).map fun piece => String.ofList (trimChars piece)

/-! ## Texts that are not cut -/

/-- How many brackets are open behind a text, if no comma and no closing parenthesis in it is
outside of brackets. -/
def openBehind (depth : Nat) : List Char → Option Nat
  | [] => some depth
  | c :: cs =>
    if depth = 0 ∧ (c = ')' ∨ c = ',') then none else openBehind (bracketDepth depth c) cs

theorem openBehind_append (depth : Nat) (cs more : List Char) :
    openBehind depth (cs ++ more) = (openBehind depth cs).bind (openBehind · more) := by
  induction cs generalizing depth with
  | nil => rfl
  | cons c cs ih =>
    rw [List.cons_append, openBehind, openBehind]
    split
    · rfl
    · exact ih _

theorem openBehind_of_plain {cs : List Char} (depth : Nat)
    (h : ∀ c ∈ cs, c ≠ ',' ∧ ∀ depth, bracketDepth depth c = depth) :
    openBehind depth cs = some depth := by
  induction cs with
  | nil => rfl
  | cons c cs ih =>
    obtain ⟨⟨hcomma, hdepth⟩, hcs⟩ := List.forall_mem_cons.1 h
    have hparenthesis : c ≠ ')' := by
      rintro rfl
      exact absurd (hdepth 1) (by decide)
    rw [openBehind, if_neg (by simp [hcomma, hparenthesis]), hdepth, ih hcs]

theorem cutArguments_append {depth depth' : Nat} {cs : List Char}
    (h : openBehind depth cs = some depth') (rest : List Char) :
    cutArguments depth (cs ++ rest) =
      (cutArguments depth' rest).map (List.modifyHead (cs ++ ·)) := by
  induction cs generalizing depth with
  | nil =>
    cases h
    rw [List.nil_append]
    cases cutArguments depth' rest with
    | none => rfl
    | some pieces => cases pieces <;> rfl
  | cons c cs ih =>
    rw [openBehind] at h
    split at h
    · cases h
    · next hcut =>
      have hclosing : ¬ (depth = 0 ∧ c = ')') := fun hc => hcut ⟨hc.1, .inl hc.2⟩
      have hcomma : ¬ (depth = 0 ∧ c = ',') := fun hc => hcut ⟨hc.1, .inr hc.2⟩
      rw [List.cons_append, cutArguments, if_neg hclosing, if_neg hcomma, ih h, Option.map_map]
      refine congrArg (Option.map · _) (funext fun pieces => ?_)
      cases pieces <;> rfl

/-- An argument or a parameter: it is cut nowhere, and has no white space around it. -/
structure IsArgument (cs : List Char) : Prop where
  uncut : openBehind 0 cs = some 0
  tight : Tight cs
  ne_nil : cs ≠ []

-- Not by the quantifiers themselves, which a decision procedure may run over all characters.
instance (cs : List Char) : Decidable (Tight cs) :=
  decidable_of_iff (cs.head?.all (!isBlank ·) = true ∧ cs.getLast?.all (!isBlank ·) = true) <| by
    simp only [Option.all_eq_true, Bool.not_eq_true']
    exact ⟨fun ⟨first, last⟩ => ⟨first, last⟩, fun ⟨first, last⟩ => ⟨first, last⟩⟩

instance (cs : List Char) : Decidable (IsArgument cs) :=
  decidable_of_iff (openBehind 0 cs = some 0 ∧ Tight cs ∧ cs ≠ [])
    ⟨fun ⟨uncut, tight, ne_nil⟩ => ⟨uncut, tight, ne_nil⟩,
      fun ⟨uncut, tight, ne_nil⟩ => ⟨uncut, tight, ne_nil⟩⟩

/-- Two arguments with something between them that is not cut either. -/
theorem IsArgument.append {cs ds : List Char} (hcs : IsArgument cs) (between : List Char)
    (hbetween : openBehind 0 between = some 0) (hds : IsArgument ds) :
    IsArgument (cs ++ between ++ ds) := by
  refine ⟨?_, ⟨?_, ?_⟩, ?_⟩
  · simp [openBehind_append, hcs.uncut, hbetween, hds.uncut]
  · rw [List.append_assoc, List.head?_append_of_ne_nil _ hcs.ne_nil]
    exact hcs.tight.first
  · rw [List.getLast?_append_of_ne_nil _ hds.ne_nil]
    exact hds.tight.last
  · simp [hcs.ne_nil]

/-! ## Lists of arguments -/

/-- The pieces of a list: all but the first have the space behind the comma. -/
def argumentPieces : List String → List (List Char)
  | [] => [[]]
  | part :: parts => part.toList :: parts.map fun part => ' ' :: part.toList

theorem cutArguments_intercalate {parts : List String} (h : ∀ part ∈ parts, IsArgument part.toList)
    (rest : List Char) : cutArguments 0 ((", ".intercalate parts).toList ++ ')' :: rest) =
      some (argumentPieces parts) := by
  induction parts with
  | nil => rfl
  | cons part parts ih =>
    obtain ⟨hpart, hparts⟩ := List.forall_mem_cons.1 h
    cases parts with
    | nil =>
      rw [String.intercalate_singleton, cutArguments_append hpart.uncut]
      simp [cutArguments, argumentPieces]
    | cons next parts =>
      have htext : (", ".intercalate (part :: next :: parts)).toList ++ ')' :: rest =
          part.toList ++ ',' :: ' ' ::
            ((", ".intercalate (next :: parts)).toList ++ ')' :: rest) := by
        rw [String.intercalate_cons_cons, String.toList_append, String.toList_append]
        simp
      have hspace : bracketDepth 0 ' ' = 0 := rfl
      rw [htext, cutArguments_append hpart.uncut, cutArguments, if_neg (by simp), if_pos (by simp),
        cutArguments, if_neg (by simp), if_neg (by simp), hspace, ih hparts]
      simp [argumentPieces]

theorem IsArgument.not_blank {cs : List Char} (h : IsArgument cs) : cs.all isBlank = false := by
  obtain ⟨c, rest, rfl⟩ := List.exists_cons_of_ne_nil h.ne_nil
  have hc : isBlank c = false := h.tight.first c rfl
  simp [hc]

theorem IsArgument.trim_space {s : String} (h : IsArgument s.toList) :
    String.ofList (trimChars (' ' :: s.toList)) = s := by
  have hspace : (' ' :: s.toList).dropWhile isBlank = s.toList.dropWhile isBlank :=
    List.dropWhile_cons_of_pos rfl
  have htrim : trimChars (' ' :: s.toList) = trimChars s.toList := by
    rw [trimChars, hspace, trimChars]
  rw [htrim, h.tight.trimChars_eq, String.ofList_toList]

theorem trim_argumentPieces {parts : List String} (h : ∀ part ∈ parts, IsArgument part.toList) :
    ((argumentPieces parts).filter (!·.all isBlank)).map
      (fun piece => String.ofList (trimChars piece)) = parts := by
  cases parts with
  | nil => rfl
  | cons part parts =>
    obtain ⟨hpart, hparts⟩ := List.forall_mem_cons.1 h
    have hkept : (parts.map fun part => ' ' :: part.toList).filter (!·.all isBlank) =
        parts.map fun part => ' ' :: part.toList := by
      rw [List.filter_eq_self, List.forall_mem_map]
      exact fun part hpart => by simp [(hparts part hpart).not_blank]
    have htrimmed : (parts.map fun part => ' ' :: part.toList).map
        (fun piece => String.ofList (trimChars piece)) = parts := by
      rw [List.map_map]
      exact (List.map_congr_left fun part hpart => (hparts part hpart).trim_space).trans
        (List.map_id' parts)
    rw [argumentPieces, List.filter_cons_of_pos (by simp [hpart.not_blank]), hkept, List.map_cons,
      htrimmed, hpart.tight.trimChars_eq, String.ofList_toList]

/-- **Arguments are read back**, whatever stands around them. -/
theorem arguments?_list {before : String} (hbefore : '(' ∉ before.toList) {parts : List String}
    (h : ∀ part ∈ parts, IsArgument part.toList) (behind : String) :
    arguments? (before ++ "(" ++ ", ".intercalate parts ++ ")" ++ behind) = some parts := by
  have htext : (before ++ "(" ++ ", ".intercalate parts ++ ")" ++ behind).toList =
      before.toList ++ '(' :: ((", ".intercalate parts).toList ++ ')' :: behind.toList) := by
    simp
  have hdrop : ∀ c ∈ before.toList, decide (c ≠ '(') = true :=
    fun c hc => decide_eq_true (ne_of_mem_of_not_mem hc hbefore)
  rw [arguments?, htext, List.dropWhile_append_of_pos hdrop, List.dropWhile_cons_of_neg (by simp),
    List.drop_succ_cons, List.drop_zero, cutArguments_intercalate h, Option.map_some,
    trim_argumentPieces h]

end Text

/-! ## Parameters -/

/-- The characters in front of the first `c`. -/
def Text.upTo (c : Char) (cs : List Char) : List Char :=
  cs.takeWhile (· ≠ c)

theorem Text.upTo_append_cons {c : Char} {cs : List Char} (h : c ∉ cs) (rest : List Char) :
    upTo c (cs ++ c :: rest) = cs := by
  have hcs : ∀ d ∈ cs, decide (d ≠ c) = true :=
    fun d hd => decide_eq_true (ne_of_mem_of_not_mem hd h)
  rw [upTo, List.takeWhile_append_of_pos hcs]
  simp

namespace Language

variable (language : Language)

/-- The text of a parameter. -/
def parameterText (name type : String) : Language → String
  | python | typeScript => name ++ ": " ++ type
  | swift => "_ " ++ name ++ ": " ++ type
  | go => name ++ " " ++ type
  | java | cpp | cSharp => type ++ " " ++ name
  | php => type ++ " " ++ Target.Php.reference name
  | javaScript | r => name

/-- The name that the text of a parameter declares. In the languages that write the type first it
is the last word. -/
def parameterName (text : String) : String :=
  let lastWord := (Text.upTo ' ' text.toList.reverse).reverse
  String.ofList <| match language with
    | python | typeScript => Text.upTo ':' text.toList
    | swift => Text.upTo ':' ((text.toList.dropWhile (· ≠ ' ')).drop 1)
    | go => Text.upTo ' ' text.toList
    | java | cpp | cSharp => lastWord
    | php =>
      match lastWord with
      | '$' :: name => name
      | _ => []
    | javaScript | r => text.toList

/-- What stands in front of the parameters. -/
def signatureBefore (returns : String) : Language → String
  | python => "def " ++ entryPoint
  | javaScript | typeScript | php => "function " ++ entryPoint
  | swift | go => "func " ++ entryPoint
  | java | cSharp => "public static " ++ returns ++ " " ++ entryPoint
  | cpp => returns ++ " " ++ entryPoint
  | r => entryPoint ++ " <- function"

/-- What stands behind the parameters. -/
def signatureBehind (returns : String) : Language → String
  | python => " -> " ++ returns ++ ":"
  | typeScript | php => ": " ++ returns ++ " \x7b"
  | swift => " -> " ++ returns ++ " \x7b"
  | go => " " ++ returns ++ " \x7b"
  | javaScript | java | cpp | cSharp | r => " \x7b"

end Language

theorem Context.Bound.parameters {ctx : Context} {table : BindingTable} (h : ctx.Bound table)
    (write : String → String → String) : ctx.parameters write =
      .ok (ctx.signature.inputs.map fun input => write input.name (table.native input.type)) := by
  unfold Context.parameters
  induction ctx.signature.inputs with
  | nil => rfl
  | cons input inputs ih =>
    rw [List.mapM_cons, ih, h.native]
    rfl

theorem Context.Bound.parameterList {ctx : Context} {table : BindingTable} (h : ctx.Bound table)
    (write : String → String → String) : ctx.parameterList write = .ok (", ".intercalate
      (ctx.signature.inputs.map fun input => write input.name (table.native input.type))) := by
  rw [Context.parameterList, h.parameters]
  rfl

namespace Language

variable {language : Language} {ctx : Context} (hctx : ctx.Bound language.target.bindings)
include hctx

/-- **A signature is a list of parameters** between a front and an end. -/
theorem signatureLine_eq :
    let native := language.target.bindings.native
    language.target.backend.signatureLine ctx = .ok
      (language.signatureBefore (native ctx.signature.returns) ++ "(" ++
        ", ".intercalate (ctx.signature.inputs.map fun input =>
          language.parameterText input.name (native input.type)) ++ ")" ++
        language.signatureBehind (native ctx.signature.returns)) := by
  intro native
  have hreturns : ctx.returnType = .ok (native ctx.signature.returns) :=
    hctx.native ctx.signature.returns
  unfold signatureBefore signatureBehind parameterText
  cases language with
  | javaScript | r =>
    refine congrArg Except.ok (String.ext ?_)
    simp [Signature.names]
  | _ =>
    refine Compiled.bind_eq_ok.2 ⟨_, hctx.parameterList _, Compiled.bind_eq_ok.2 ⟨_, hreturns, ?_⟩⟩
    refine congrArg Except.ok (String.ext ?_)
    simp [native]

omit hctx

/-! ## Reading parameters -/

/-- The name of a type is an argument, and has no opening parenthesis. -/
abbrev IsTypeName (cs : List Char) : Prop :=
  Text.IsArgument cs ∧ '(' ∉ cs

theorem isTypeName_ofList {cs : List Char} (h : IsTypeName cs) :
    IsTypeName (String.ofList cs).toList := by
  rwa [String.toList_ofList]

theorem isTypeName_fill {template element : List Char}
    (h : IsTypeName (Text.fillChars element template)) :
    IsTypeName (Text.fill (String.ofList template) (String.ofList element)).toList := by
  simpa [Text.fill] using h

theorem isTypeName_native (language : Language) (type : DataType) :
    IsTypeName (language.target.bindings.native type).toList := by
  cases type with
  | scalar s => cases language <;> cases s <;> exact isTypeName_ofList (by decide +kernel)
  | composite c e =>
    cases language <;> cases c <;> cases e <;> exact isTypeName_fill (by decide +kernel)

variable {language : Language}

/-- A character of a name is no bracket, no comma and no white space. -/
theorem plain_of_isTail {c : Char} (h : Name.isTail c = true) :
    (c ≠ ',' ∧ ∀ depth, Text.bracketDepth depth c = depth) ∧ Text.isBlank c = false := by
  have hne (d : Char) (hd : Name.isTail d = false) : c ≠ d := by
    rintro rfl
    rw [h] at hd
    cases hd
  refine ⟨⟨hne ',' (by decide), fun depth => ?_⟩, ?_⟩
  · rw [Text.bracketDepth, if_neg, if_neg]
    · simp [hne ')' (by decide), hne ']' (by decide), hne '>' (by decide), hne '\x7d' (by decide)]
    · simp [hne '(' (by decide), hne '[' (by decide), hne '<' (by decide), hne '\x7b' (by decide)]
  · have hrange : 48 ≤ c.toNat ∧ c.toNat ≤ 122 := by
      simp only [Name.isTail, Name.isHead, Bool.or_eq_true, Bool.and_eq_true,
        decide_eq_true_eq] at h
      rcases h with ((h | h) | rfl) | h
      · exact ⟨Nat.le_trans (by decide) h.1, h.2⟩
      · exact ⟨Nat.le_trans (by decide) h.1, Nat.le_trans h.2 (by decide)⟩
      · decide
      · exact ⟨h.1, Nat.le_trans h.2 (by decide)⟩
    simp [Text.isBlank, Text.inRanges, Text.blankRanges]
    omega

theorem isArgument_name {name : String} (h : Name.isIdentifier name) :
    Text.IsArgument name.toList := by
  have hplain : ∀ c ∈ name.toList, _ := fun c hc => plain_of_isTail (Name.isTail_of_mem h hc)
  obtain ⟨first, rest, hname, -⟩ := Name.exists_head h
  refine ⟨Text.openBehind_of_plain 0 fun c hc => (hplain c hc).1, ⟨?_, ?_⟩, by simp [hname]⟩
  · exact fun c hc => (hplain c (List.mem_of_mem_head? hc)).2
  · exact fun c hc => (hplain c (List.mem_of_mem_getLast? hc)).2

theorem isArgument_reference (language : Language) {name : String} (h : Name.isIdentifier name) :
    Text.IsArgument (language.target.backend.reference name).toList := by
  have hname := isArgument_name h
  cases language with
  | php =>
    have hdollar : Text.IsArgument "$".toList := by decide
    have happend := hdollar.append [] rfl hname
    show Text.IsArgument ("$" ++ name).toList
    simpa using happend
  | _ => exact hname

/-- The text of a parameter is one argument, and declares its name. -/
theorem parameterText_read {name : String} (h : Name.isIdentifier name) (type : DataType) :
    let text := language.parameterText name (language.target.bindings.native type)
    Text.IsArgument text.toList ∧ language.parameterName text = name := by
  have hname := isArgument_name h
  have htype := (isTypeName_native language type).1
  unfold parameterName parameterText
  constructor
  · cases language with
    | python | typeScript => simpa using hname.append ": ".toList (by decide) htype
    | swift =>
      have hlabel : Text.IsArgument "_".toList := by decide
      have hinner := hname.append ": ".toList (by decide) htype
      simpa using hlabel.append " ".toList (by decide) hinner
    | go => simpa using hname.append " ".toList (by decide) htype
    | java | cpp | cSharp => simpa using htype.append " ".toList (by decide) hname
    | php =>
      have hreference : Text.IsArgument (Target.Php.reference name).toList :=
        isArgument_reference php h
      simpa using htype.append " ".toList (by decide) hreference
    | javaScript | r => exact hname
  · have hnot (c : Char) (hc : Name.isTail c = false) : c ∉ name.toList :=
      Name.not_mem_of_isTail h hc
    have hcolon := fun rest => Text.upTo_append_cons (hnot ':' (by decide)) rest
    have hspace := fun rest => Text.upTo_append_cons (hnot ' ' (by decide)) rest
    -- where the type comes first, the name is read from the end
    have hlast (cs : List Char) : Text.upTo ' ' (name.toList.reverse ++ ' ' :: cs) =
        name.toList.reverse :=
      Text.upTo_append_cons (by simpa using hnot ' ' (by decide)) cs
    have hdollar (cs : List Char) : Text.upTo ' ' (name.toList.reverse ++ '$' :: ' ' :: cs) =
        name.toList.reverse ++ ['$'] := by
      rw [List.append_cons]
      exact Text.upTo_append_cons (by simpa using hnot ' ' (by decide)) cs
    cases language with
    | python | typeScript | swift => simp [hcolon]
    | go => simp [hspace]
    | java | cpp | cSharp => simp [hlast]
    | php => simp [Target.Php.reference, hdollar]
    | javaScript | r => simp

/-! ## Signatures and calls -/

/-- **A signature has one parameter for each input**, in order, which declares its name. -/
theorem arguments?_signatureLine (hctx : ctx.Bound language.target.bindings)
    (hnames : ∀ input ∈ ctx.signature.inputs, Name.isIdentifier input.name) :
    ∃ opening, language.target.backend.signatureLine ctx = .ok opening ∧
      (Text.arguments? opening).map (·.map language.parameterName) = some ctx.signature.names := by
  have hbefore : '(' ∉ (language.signatureBefore
      (language.target.bindings.native ctx.signature.returns)).toList := by
    have hreturns := (isTypeName_native language ctx.signature.returns).2
    unfold signatureBefore
    cases language with
    | java | cSharp | cpp =>
      simp [hreturns]
      decide
    | _ =>
      dsimp only
      decide +kernel
  refine ⟨_, signatureLine_eq hctx, ?_⟩
  rw [Text.arguments?_list hbefore, Option.map_some, List.map_map, Signature.names]
  · exact congrArg some (List.map_congr_left fun input hinput =>
      (parameterText_read (hnames input hinput) input.type).2)
  · rw [List.forall_mem_map]
    exact fun input hinput => (parameterText_read (hnames input hinput) input.type).1

/-- **A call passes every input**, in order. -/
theorem arguments?_call (language : Language) {signature : Signature}
    (hnames : ∀ input ∈ signature.inputs, Name.isIdentifier input.name) :
    Text.arguments? (language.target.backend.call signature) =
      some (signature.names.map language.target.backend.reference) := by
  have hcall : language.target.backend.call signature = entryPoint ++ "(" ++
      ", ".intercalate (signature.names.map language.target.backend.reference) ++ ")" ++ "" :=
    String.append_empty.symm
  rw [hcall]
  refine Text.arguments?_list (by decide) ?_ ""
  rw [Signature.names, List.map_map, List.forall_mem_map]
  exact fun input hinput => isArgument_reference language (hnames input hinput)

end Language

end StructuredCall
