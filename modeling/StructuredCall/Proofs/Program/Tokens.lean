import StructuredCall.Proofs.Program.Occurrence
import StructuredCall.Proofs.Program.Parameters

/-!
# Tokens in a harness

The lines of the standard input have an expression each, their tokens. In a language all tokens
begin with the same stem, which ends in a character that no name has, and go on with a number.

* A value is decoded from its token, which stands in the expression once: the expressions of a
  composite's elements and the templates around them are put together from edges
  (`Language.carries_decode`).
* Everything else in a harness has no stem. Names, the names of types, and what is printed each lack
  a character of it (`Lacks`); lines that are always the same are looked through.

Main results: `Language.carries_decode`, `Language.exists_declaration`, `Language.tokenless_stub`
and `Language.tokenless_scaffold`.
-/

namespace StructuredCall

namespace Text

/-! ## Templates with one hole -/

/-- What stands in front of the first hole of a template, and behind it. -/
def splitHole : List Char → Option (List Char × List Char)
  | '\x7b' :: '0' :: '\x7d' :: rest => some ([], rest)
  | c :: rest => (splitHole rest).map (Prod.map (c :: ·) id)
  | [] => none

theorem fillChars_of_splitHole_none {template : List Char} (h : splitHole template = none)
    (value : List Char) : fillChars value template = template := by
  fun_induction splitHole template with
  | case1 rest => cases h
  | case2 c rest hhole ih =>
    rw [fillChars, ih (Option.map_eq_none_iff.1 h)]
    exact hhole
  | case3 => rfl

theorem fillChars_of_splitHole {template before behind : List Char}
    (h : splitHole template = some (before, behind)) (hbehind : splitHole behind = none)
    (value : List Char) : fillChars value template = before ++ value ++ behind := by
  fun_induction splitHole template generalizing before with
  | case1 rest =>
    cases h
    rw [fillChars, fillChars_of_splitHole_none hbehind, List.nil_append]
  | case2 c rest hhole ih =>
    obtain ⟨⟨front, back⟩, hrest, hcons⟩ := Option.map_eq_some_iff.1 h
    cases hcons
    rw [fillChars, ih hrest]
    · rfl
    · exact hhole
  | case3 => cases h

/-- A template with one hole, between edges. -/
def Framed (stem template : List Char) : Prop :=
  match splitHole template with
  | some (before, behind) => splitHole behind = none ∧ Edge stem before ∧ Edge stem behind
  | none => False

instance (stem template : List Char) : Decidable (Framed stem template) :=
  match h : splitHole template with
  | some (before, behind) =>
    decidable_of_iff (splitHole behind = none ∧ Edge stem before ∧ Edge stem behind)
      (by rw [Framed, h])
  | none => .isFalse (by rw [Framed, h]; exact id)

theorem Carries.fill {stem template : List Char} (h : Framed stem template) {token value : String}
    (hvalue : Carries stem token value) :
    Carries stem token (fill (String.ofList template) value) := by
  unfold Framed at h
  split at h
  · next before behind hsplit =>
    obtain ⟨hbehind, hbefore, hedge⟩ := h
    have htext : Text.fill (String.ofList template) value =
        String.ofList before ++ value ++ String.ofList behind := by
      refine String.ext ?_
      simp [Text.fill, fillChars_of_splitHole hsplit hbehind]
    rw [htext]
    exact (hvalue.ahead (edge_ofList hbefore)).behind (edge_ofList hedge)
  · exact h.elim

theorem not_mem_natDigits {c : Char} (h : isDigit c = false) (n : Nat) : c ∉ natDigits n := by
  intro hmem
  rw [isDigit_of_mem_natDigits hmem] at h
  cases h

end Text

open Text

namespace Language

/-! ## Tokens -/

/-- What the expressions for the lines of the input begin with. -/
def tokenStem : Language → List Char
  | python | r => ['i', 'n', 'p', 'u', 't', '_', 'd', 'a', 't', 'a', '[']
  | php => ['$', 'i', 'n', 'p', 'u', 't', 'D', 'a', 't', 'a', '[']
  | java => ['i', 'n', 'p', 'u', 't', 'D', 'a', 't', 'a', '.']
  | javaScript | cpp | cSharp | typeScript | swift | go =>
    ['i', 'n', 'p', 'u', 't', 'D', 'a', 't', 'a', '[']

/-- Behind the stem there is a number, up to a character that is no digit. -/
structure TokenEnd (language : Language) (middle : List Char) (last : Char) : Prop where
  stops : isDigit last = false
  middle : 'i' ∉ middle ∧ '\n' ∉ middle
  last : last ∉ language.tokenStem ∧ last ≠ '\n'

theorem token_eq (language : Language) : ∃ middle first last, language.TokenEnd middle last ∧
    ∀ index, (language.target.backend.token index).toList =
      language.tokenStem ++ (middle ++ natDigits (index + first) ++ [last]) := by
  cases language with
  | java =>
    refine ⟨"get(".toList, 0, ')', ⟨by decide, by decide, by decide⟩, fun index => ?_⟩
    simp [target, Target.Java.target, Target.Java.backend, natText, tokenStem]
  | r =>
    refine ⟨[], 1, ']', ⟨by decide, by decide, by decide⟩, fun index => ?_⟩
    simp [target, Target.R.target, Target.R.backend, natText, tokenStem]
  | _ =>
    refine ⟨[], 0, ']', ⟨by decide, by decide, by decide⟩, fun index => ?_⟩
    simp [target, Target.Python.target, Target.Python.backend, Target.JavaScript.target,
      Target.JavaScript.backend, Target.TypeScript.target, Target.TypeScript.backend,
      Target.Cpp.target, Target.Cpp.backend, Target.CSharp.target, Target.CSharp.backend,
      Target.Php.target, Target.Php.backend, Target.Swift.target, Target.Swift.backend,
      Target.Go.target, Target.Go.backend, natText, tokenStem]

theorem tokenStem_prefix (language : Language) (index : Nat) :
    language.tokenStem <+: (language.target.backend.token index).toList := by
  obtain ⟨middle, first, last, -, htoken⟩ := language.token_eq
  exact htoken index ▸ List.prefix_append _ _

theorem token_plain (language : Language) (index : Nat) :
    let token := language.target.backend.token index
    OneLine token ∧ occurrences language.tokenStem token.toList = 1 ∧
      Closed language.tokenStem token.toList := by
  intro token
  obtain ⟨middle, first, last, hend, htoken⟩ := language.token_eq
  have hstem : '\n' ∉ language.tokenStem ∧ 'i' ∈ language.tokenStem ∧
      Closed language.tokenStem language.tokenStem ∧
      occurrences language.tokenStem language.tokenStem = 1 := by
    cases language <;> decide
  obtain ⟨hline, hletter, hclosed, honce⟩ := hstem
  have hrest : 'i' ∉ middle ++ natDigits (index + first) ++ [last] := by
    have hlast : 'i' ≠ last := fun h => hend.last.1 (h ▸ hletter)
    simp [hend.middle.1, not_mem_natDigits (show isDigit 'i' = false by decide), hlast]
  refine ⟨?_, ?_, ?_⟩
  · have hfeed : '\n' ≠ last := hend.last.2.symm
    simp [token, OneLine, htoken, hline, hend.middle.2, hfeed,
      not_mem_natDigits (show isDigit '\n' = false by decide)]
  · rw [htoken, occurrences_append hclosed, honce, occurrences_eq_zero hletter hrest]
  · rw [htoken, ← List.append_assoc]
    exact Closed.nil.append_cons hend.last.1 _

/-- Tokens of different lines do not begin in the same place. -/
theorem token_apart (language : Language) {index other : Nat} (h : index ≠ other)
    (cs : List Char) (hindex : (language.target.backend.token index).toList <+: cs) :
    ¬ (language.target.backend.token other).toList <+: cs := by
  rintro ⟨rest', rfl⟩
  obtain ⟨rest, hrest⟩ := hindex
  obtain ⟨middle, first, last, hend, htoken⟩ := language.token_eq
  have hstops (rest : List Char) : Stops (last :: rest) := hend.stops
  simp only [htoken, List.append_assoc, List.append_cancel_left_eq, List.cons_append,
    List.nil_append] at hrest
  -- the digits of both numbers end at the same character
  have hread := (read_natDigits (hstops rest) (hstops rest') hrest).1
  omega

variable {language : Language} {ctx : Context}

/-! ## Decoding -/

theorem framed_parse (language : Language) (kind : Kind) : ∃ template,
    (language.target.bindings kind).parse = String.ofList template ∧
      Framed language.tokenStem template := by
  rcases kind with s | c
  · cases language <;> cases s <;> exact ⟨_, rfl, by decide⟩
  · cases language <;> cases c <;> exact ⟨_, rfl, by decide⟩

/-- What stands for one element in the expressions that decode composites. -/
def elements : Language → List String
  | python | javaScript | typeScript => ["token", "value"]
  | java | cSharp => ["token", "parts[1]"]
  | cpp | go => ["token"]
  | php => ["$token", "$parts[1]"]
  | r => ["value"]
  | swift => ["String(token)", "String(entry.drop(while: \x7b $0 != \":\" \x7d).dropFirst())"]

theorem edge_fill {stem template value : List Char} (h : Edge stem (fillChars value template)) :
    Edge stem (fill (String.ofList template) (String.ofList value)).toList := by
  simpa [fill] using h

theorem edge_element (language : Language) (s : Scalar) : ∀ element ∈ language.elements,
    Edge language.tokenStem
      (fill (language.target.bindings (.scalar s)).parse element).toList := by
  cases language <;> cases s
  all_goals
    simp only [elements, List.forall_mem_cons]
    repeat' first
      | exact edge_fill (by decide)
      | exact fun _ h => absurd h List.not_mem_nil
      | constructor

theorem edge_generic (s : Scalar) :
    Edge go.tokenStem (go.target.bindings (.scalar s)).generic.toList := by
  cases s <;> exact edge_ofList (by decide)

variable (hctx : ctx.Bound language.target.bindings)
include hctx

theorem carries_parse (kind : Kind) {token value : String}
    (h : Carries language.tokenStem token value) :
    ∃ text, ctx.parse kind value = .ok text ∧ Carries language.tokenStem token text := by
  obtain ⟨template, htemplate, hframed⟩ := framed_parse language kind
  refine ⟨_, hctx.parse kind value, ?_⟩
  rw [htemplate]
  exact h.fill hframed

/-- **The elements of a composite are read off the token**, which stands there once. -/
theorem carries_sequence (c : Container) (e : Scalar) (token : String) :
    ∃ text, language.target.backend.sequence ctx c e token = .ok text ∧
      Carries language.tokenStem token text := by
  have hparse (element : String) := hctx.parse (.scalar e) element
  have helement := language.edge_element e
  -- in each language the token stands between edges: literal texts, and what gives an element
  have hliteral {cs : List Char} (h : Edge language.tokenStem cs) := edge_ofList h
  have htoken : Carries language.tokenStem token token := .refl token
  cases language with
  | python =>
    cases c with
    | map =>
      refine ⟨_, Compiled.bind_eq_ok.2 ⟨_, hparse "value", rfl⟩, ?_⟩
      refine (htoken.ahead (.append (.append (hliteral (by decide)) ?_)
        (hliteral (by decide)))).behind (hliteral (by decide))
      exact helement "value" (by decide)
    | array | set =>
      refine ⟨_, Compiled.bind_eq_ok.2 ⟨_, hparse "token", rfl⟩, ?_⟩
      refine (htoken.ahead (.append ?_ (hliteral (by decide)))).behind (hliteral (by decide))
      exact helement "token" (by decide)
  | javaScript | typeScript =>
    cases c with
    | map =>
      refine ⟨_, Compiled.bind_eq_ok.2 ⟨_, hparse "value", rfl⟩, ?_⟩
      refine ((((Carries.behind ?_ (hliteral (by decide))).behind
        (helement "value" (by decide))).behind (hliteral (by decide))).behind
          (hliteral (by decide))).behind (hliteral (by decide))
      exact htoken.behind (hliteral (by decide))
    | array | set =>
      refine ⟨_, Compiled.bind_eq_ok.2 ⟨_, hparse "token", rfl⟩, ?_⟩
      exact ((htoken.behind (hliteral (by decide))).behind (helement "token" (by decide))).behind
        (hliteral (by decide))
  | java =>
    cases c
    all_goals
      refine ⟨_, Compiled.bind_eq_ok.2 ⟨_, hparse _, rfl⟩, ?_⟩
      refine (((Carries.behind ?_ (hliteral (by decide))).behind (hliteral (by decide))).behind
        (helement _ (by decide))).behind (hliteral (by decide))
      exact htoken.ahead (hliteral (by decide))
  | cpp =>
    refine ⟨_, Compiled.bind_eq_ok.2 ⟨_, hparse "token", rfl⟩, ?_⟩
    refine ((Carries.behind ?_ (hliteral (by decide))).behind (helement "token" (by decide))).behind
      (hliteral (by decide))
    cases c <;> exact htoken.ahead (by decide)
  | cSharp =>
    have hpieces : Carries cSharp.tokenStem token (Target.CSharp.pieces token) :=
      htoken.behind (hliteral (by decide))
    cases c with
    | map =>
      refine ⟨_, Compiled.bind_eq_ok.2 ⟨_, hparse "parts[1]", rfl⟩, ?_⟩
      exact (((hpieces.behind (hliteral (by decide))).behind (hliteral (by decide))).behind
        (helement "parts[1]" (by decide))).behind (hliteral (by decide))
    | array | set =>
      refine ⟨_, Compiled.bind_eq_ok.2 ⟨_, hparse "token", rfl⟩, ?_⟩
      exact ((hpieces.behind (hliteral (by decide))).behind (helement "token" (by decide))).behind
        (hliteral (by decide))
  | php =>
    have hpieces : Carries php.tokenStem token (Target.Php.pieces token) :=
      (htoken.ahead (hliteral (by decide))).behind (hliteral (by decide))
    cases c
    all_goals
      refine ⟨_, Compiled.bind_eq_ok.2 ⟨_, hparse _, rfl⟩, ?_⟩
      refine (hpieces.ahead (.append (.append (hliteral (by decide)) ?_)
        (hliteral (by decide)))).behind (hliteral (by decide))
      exact helement _ (by decide)
  | r =>
    have htokens : Carries r.tokenStem token ("splitTokens(" ++ token ++ ")") :=
      (htoken.ahead (hliteral (by decide))).behind (hliteral (by decide))
    cases c with
    | map =>
      refine ⟨_, Compiled.bind_eq_ok.2 ⟨_, hparse "value", rfl⟩, ?_⟩
      exact (((htokens.ahead (hliteral (by decide))).behind (hliteral (by decide))).behind
        (helement "value" (by decide))).behind (hliteral (by decide))
    | array | set => exact carries_parse hctx (.scalar e) htokens
  | swift =>
    cases c with
    | map =>
      refine ⟨_, Compiled.bind_eq_ok.2 ⟨_, hparse _, rfl⟩, ?_⟩
      exact (((htoken.behind (hliteral (by decide))).behind (hliteral (by decide))).behind
        (helement _ (by decide))).behind (hliteral (by decide))
    | array | set =>
      refine ⟨_, Compiled.bind_eq_ok.2 ⟨_, hparse _, rfl⟩, ?_⟩
      exact ((htoken.behind (hliteral (by decide))).behind (helement _ (by decide))).behind
        (hliteral (by decide))
  | go =>
    refine ⟨_, Compiled.bind_eq_ok.2 ⟨_, hctx.generic e, Compiled.bind_eq_ok.2
      ⟨_, hparse "token", rfl⟩⟩, ?_⟩
    refine ((((Carries.behind ?_ (hliteral (by decide))).behind (edge_generic e)).behind
      (hliteral (by decide))).behind (helement "token" (by decide))).behind (hliteral (by decide))
    cases c <;> exact htoken.ahead (by decide)

/-- **A value is decoded from the token**, which stands there once. -/
theorem carries_decode (type : DataType) (token : String) :
    ∃ text, language.target.backend.decode ctx type token = .ok text ∧
      Carries language.tokenStem token text := by
  cases type with
  | scalar s => exact carries_parse hctx (.scalar s) (.refl token)
  | composite c e =>
    obtain ⟨elements, helements, hcarries⟩ := carries_sequence hctx c e token
    obtain ⟨text, htext, hcarries⟩ := carries_parse hctx (.container c) hcarries
    exact ⟨text, Compiled.bind_eq_ok.2 ⟨elements, helements, htext⟩, hcarries⟩

omit hctx

/-! ## Names and types -/

/-- The stem has a character that no name has. -/
theorem exists_lacks_name (language : Language) : ∃ m ∈ language.tokenStem,
    ∀ {name : String}, Name.isIdentifier name → Lacks m (language.target.backend.reference name) ∧
      Lacks m name := by
  have hlacks {m : Char} (hm : Name.isTail m = false) {name : String}
      (h : Name.isIdentifier name) : Lacks m name :=
    ⟨Name.not_mem_of_isTail h hm, Name.not_mem_of_isTail h (by decide)⟩
  cases language with
  | java => exact ⟨'.', by decide, fun h => ⟨hlacks (by decide) h, hlacks (by decide) h⟩⟩
  | php =>
    refine ⟨'[', by decide, fun h => ⟨?_, hlacks (by decide) h⟩⟩
    exact (lacks_ofList (by decide)).append (hlacks (by decide) h)
  | _ => exact ⟨'[', by decide, fun h => ⟨hlacks (by decide) h, hlacks (by decide) h⟩⟩

theorem silent_name (language : Language) {name : String} (h : Name.isIdentifier name) :
    Silent language.tokenStem name.toList := by
  obtain ⟨m, hm, hlacks⟩ := language.exists_lacks_name
  exact (hlacks h).2.silent hm

theorem silent_reference (language : Language) {name : String} (h : Name.isIdentifier name) :
    Silent language.tokenStem (language.target.backend.reference name).toList := by
  obtain ⟨m, hm, hlacks⟩ := language.exists_lacks_name
  exact (hlacks h).1.silent hm

/-- A character of the stem that no name of a type has. -/
def typeLetter : Language → Char
  | python | r => '_'
  | java => '.'
  | swift => 'p'
  | cSharp => '['
  | javaScript | cpp | php | typeScript | go => 'D'

theorem typeLetter_mem (language : Language) : language.typeLetter ∈ language.tokenStem := by
  cases language <;> decide

theorem lacks_generic (language : Language) (s : Scalar) :
    Lacks language.typeLetter (language.target.bindings (.scalar s)).generic := by
  cases language <;> cases s <;> exact lacks_ofList (by decide)

theorem silent_native (language : Language) (type : DataType) :
    Silent language.tokenStem (language.target.bindings.native type).toList := by
  have hlacks : Lacks language.typeLetter (language.target.bindings.native type) := by
    cases type with
    | scalar s => cases language <;> cases s <;> exact lacks_ofList (by decide)
    | composite c e =>
      refine Lacks.fill ?_ (language.lacks_generic e)
      cases language <;> cases c <;> exact lacks_ofList (by decide)
  exact hlacks.silent language.typeLetter_mem

theorem silent_defaultValue (hctx : ctx.Bound language.target.bindings) :
    ∃ value, ctx.defaultValue = .ok value ∧ Silent language.tokenStem value.toList := by
  cases hreturns : ctx.signature.returns with
  | scalar s =>
    refine ⟨(language.target.bindings (.scalar s)).defaultValue, ?_, ?_⟩
    · simp [Context.defaultValue, Registry.defaultValue, hreturns, DataType.kind, hctx _]
    · cases language <;> cases s <;> exact silent_ofList (by decide)
  | composite c e =>
    refine ⟨fill (language.target.bindings (.container c)).defaultValue
      (language.target.bindings (.scalar e)).generic, ?_, ?_⟩
    · simp [Context.defaultValue, Registry.defaultValue, Registry.generic, hreturns, DataType.kind,
        hctx _]
    · refine (Lacks.fill ?_ (language.lacks_generic e)).silent language.typeLetter_mem
      cases language <;> cases c <;> exact lacks_ofList (by decide)

/-! ## Lines around the inputs -/

/-- What stands around the value in a declaration. -/
theorem exists_declaration (hctx : ctx.Bound language.target.bindings) {name : String}
    (hname : Name.isIdentifier name) (type : DataType) : ∃ before behind,
      Edge language.tokenStem before.toList ∧ Edge language.tokenStem behind.toList ∧
      ∀ value, language.target.backend.declare ctx name type value =
        .ok (before ++ value ++ behind) := by
  have hsilent := language.silent_name hname
  have hreference := language.silent_reference hname
  have htype := language.silent_native type
  have hnative := hctx.native type
  have hvalue {ending : String} (h : "" = ending) (before value : String) :
      (Except.ok (before ++ value) : Compiled String) = .ok (before ++ value ++ ending) := by
    rw [← h, String.append_empty]
  cases language with
  | python | r | go =>
    exact ⟨_, "", hsilent.append_cut (cut_ofList (by decide)), .nil, fun value => hvalue rfl _ _⟩
  | php =>
    exact ⟨_, _, hreference.append_cut (cut_ofList (by decide)), edge_ofList (by decide),
      fun value => rfl⟩
  | javaScript =>
    refine ⟨_, _, ?_, edge_ofList (by decide), fun value => rfl⟩
    exact hsilent.between (by decide) (by decide)
  | typeScript =>
    refine ⟨_, _, ?_, edge_ofList (by decide),
      fun value => Compiled.bind_eq_ok.2 ⟨_, hnative, rfl⟩⟩
    exact ((hsilent.between (by decide) (by decide)).append_silent htype).append_cut
      (cut_ofList (by decide))
  | swift =>
    refine ⟨_, "", ?_, .nil,
      fun value => Compiled.bind_eq_ok.2 ⟨_, hnative, hvalue rfl _ _⟩⟩
    exact ((hsilent.between (by decide) (by decide)).append_silent htype).append_cut
      (cut_ofList (by decide))
  | java | cpp | cSharp =>
    refine ⟨_, _, ?_, edge_ofList (by decide),
      fun value => Compiled.bind_eq_ok.2 ⟨_, hnative, rfl⟩⟩
    exact ((htype.append_cut (cut_ofList (by decide))).append_silent hsilent).append_cut
      (cut_ofList (by decide))

theorem cut_marks (language : Language) : Cut language.tokenStem "(".toList ∧
    Cut language.tokenStem ", ".toList ∧ Cut language.tokenStem ")".toList := by
  cases language <;>
    exact ⟨cut_ofList (by decide), cut_ofList (by decide), cut_ofList (by decide)⟩

theorem edge_call (language : Language) {signature : Signature}
    (hnames : ∀ input ∈ signature.inputs, Name.isIdentifier input.name) :
    Edge language.tokenStem (language.target.backend.call signature).toList := by
  obtain ⟨hopen, hcomma, hclose⟩ := language.cut_marks
  have hentry : Silent language.tokenStem entryPoint.toList := language.silent_name (by decide)
  refine ((hentry.append_cut hopen).append_silent
    (silent_intercalate hcomma ?_)).append_cut hclose
  rw [Signature.names, List.map_map, List.forall_mem_map]
  exact fun input hinput => language.silent_reference (hnames input hinput)

theorem silent_callLine (hctx : ctx.Bound language.target.bindings)
    (hnames : ∀ input ∈ ctx.signature.inputs, Name.isIdentifier input.name) {call : String}
    (h : language.target.backend.callLine ctx = .ok call) :
    Silent language.tokenStem call.toList := by
  obtain ⟨before, behind, hbefore, hbehind, hdeclare⟩ :=
    exists_declaration hctx (show Name.isIdentifier resultVariable by decide) ctx.signature.returns
  obtain rfl := Except.ok.inj ((hdeclare _).symm.trans h)
  exact ((hbefore.append (language.edge_call hnames)).append hbehind).toSilent

theorem silent_parameterText {name : String} (h : Name.isIdentifier name) (type : DataType) :
    Silent language.tokenStem
      (language.parameterText name (language.target.bindings.native type)).toList := by
  have hname := language.silent_name h
  have hreference := language.silent_reference h
  have htype := language.silent_native type
  unfold parameterText
  cases language with
  | python | typeScript | go =>
    exact (hname.append_cut (cut_ofList (by decide))).append_silent htype
  | swift =>
    exact (hname.between (by decide) (by decide)).append_silent htype
  | java | cpp | cSharp => exact (htype.append_cut (cut_ofList (by decide))).append_silent hname
  | php => exact (htype.append_cut (cut_ofList (by decide))).append_silent hreference
  | javaScript | r => exact hname

theorem silent_signatureLine (hctx : ctx.Bound language.target.bindings)
    (hnames : ∀ input ∈ ctx.signature.inputs, Name.isIdentifier input.name) {opening : String}
    (h : language.target.backend.signatureLine ctx = .ok opening) :
    Silent language.tokenStem opening.toList := by
  obtain rfl := Except.ok.inj ((signatureLine_eq hctx).symm.trans h)
  obtain ⟨hopen, hcomma, hclose⟩ := language.cut_marks
  have htype := language.silent_native ctx.signature.returns
  have hbefore : Silent language.tokenStem (language.signatureBefore
      (language.target.bindings.native ctx.signature.returns)).toList := by
    unfold signatureBefore
    cases language with
    | java | cSharp =>
      exact ((htype.between (by decide) (by decide)).append (by decide)).toSilent
    | cpp => exact ((htype.append_cut (cut_ofList (by decide))).append (by decide)).toSilent
    | _ =>
      dsimp only
      decide
  have hbehind : Silent language.tokenStem (language.signatureBehind
      (language.target.bindings.native ctx.signature.returns)).toList := by
    unfold signatureBehind
    cases language with
    | python | typeScript | php | swift | go =>
      exact (htype.between (by decide) (by decide)).toSilent
    | javaScript | java | cpp | cSharp | r => exact silent_ofList (by decide)
  refine (((hbefore.append_cut hopen).append_silent
    (silent_intercalate hcomma ?_)).append_cut hclose).append_silent hbehind
  rw [List.forall_mem_map]
  exact fun input hinput => silent_parameterText (hnames input hinput) input.type

/-- Steps that have no token on any line. -/
def Tokenless (language : Language) (steps : List Step) : Prop :=
  ∀ step ∈ steps, step.Writes (Silent language.tokenStem ·.toList)

theorem Tokenless.append {steps more : List Step} (h : language.Tokenless steps)
    (h' : language.Tokenless more) : language.Tokenless (steps ++ more) :=
  List.forall_mem_append.2 ⟨h, h'⟩

theorem tokenless_stubDoc (hctx : ctx.Bound language.target.bindings)
    (hnames : ∀ input ∈ ctx.signature.inputs, Name.isIdentifier input.name) {doc : List Step}
    (h : language.target.backend.stubDoc ctx = .ok doc) :
    language.Tokenless doc := by
  have hreturns := hctx.native ctx.signature.returns
  cases language with
  | javaScript =>
    obtain ⟨parameters, hparameters, h⟩ := Compiled.bind_eq_ok.1 h
    obtain ⟨returns, hread, h⟩ := Compiled.bind_eq_ok.1 h
    obtain rfl := Except.ok.inj ((hctx.parameters _).symm.trans hparameters)
    obtain rfl := Except.ok.inj (hreturns.symm.trans hread)
    cases h
    simp only [Tokenless, List.forall_mem_append, List.forall_mem_map, List.forall_mem_cons]
    refine ⟨⟨⟨silent_ofList (by decide), by simp⟩, fun input hinput => ?_⟩, ?_,
      silent_ofList (by decide), by simp⟩
    · exact ((javaScript.silent_native _).between (by decide) (by decide)).append_silent
        (javaScript.silent_name (hnames input hinput))
    · exact ((javaScript.silent_native _).between (by decide) (by decide)).toSilent
  | r =>
    obtain ⟨parameters, hparameters, h⟩ := Compiled.bind_eq_ok.1 h
    obtain ⟨returns, hread, h⟩ := Compiled.bind_eq_ok.1 h
    obtain rfl := Except.ok.inj ((hctx.parameters _).symm.trans hparameters)
    obtain rfl := Except.ok.inj (hreturns.symm.trans hread)
    cases h
    simp only [Tokenless, List.forall_mem_append, List.forall_mem_map, List.forall_mem_singleton]
    refine ⟨fun input hinput => ?_, ?_⟩
    · exact ((r.silent_name (hnames input hinput)).between (by decide) (by decide)).append_silent
        (r.silent_native _)
    · exact (edge_ofList (by decide)).append_silent (r.silent_native _)
  | _ =>
    cases h
    exact List.forall_mem_nil _

theorem tokenless_stub (hctx : ctx.Bound language.target.bindings)
    (hnames : ∀ input ∈ ctx.signature.inputs, Name.isIdentifier input.name) {stub : List Step}
    (h : language.target.backend.stub ctx none = .ok stub) :
    language.Tokenless stub := by
  obtain ⟨doc, opening, inner, hdoc, hopening, hinner, rfl⟩ := Backend.stub_eq_ok h
  obtain ⟨value, hvalue, hinner⟩ := Compiled.bind_eq_ok.1 hinner
  cases hinner
  obtain ⟨value', hvalue', hsilent⟩ := silent_defaultValue hctx
  obtain rfl := Except.ok.inj (hvalue'.symm.trans hvalue)
  have hremark : Silent language.tokenStem
      (language.target.backend.comment stubRemark).toList := by
    cases language <;> decide
  have hreturn : Silent language.tokenStem
      (language.target.backend.returnStatement value').toList := by
    cases language with
    | python | swift | go => exact (edge_ofList (by decide)).append_silent hsilent
    | _ => exact (hsilent.between (by decide) (by decide)).toSilent
  have hend : language.Tokenless (language.target.backend.blockEnd.map Step.line).toList := by
    cases language with
    | python => exact List.forall_mem_nil _
    | _ => exact List.forall_mem_singleton.2 (by decide : Silent _ "\x7d".toList)
  have hopened : language.Tokenless [.line opening, .indent] := by
    simpa [Tokenless, Step.Writes] using silent_signatureLine hctx hnames hopening
  have hinside : language.Tokenless [.line (language.target.backend.comment stubRemark),
      .line (language.target.backend.returnStatement value')] := by
    simpa [Tokenless, Step.Writes] using ⟨hremark, hreturn⟩
  have hdedent : language.Tokenless [.dedent] := by
    simp [Tokenless, Step.Writes]
  exact ((((tokenless_stubDoc hctx hnames hdoc).append hopened).append hinside).append
    hdedent).append hend

/-! ## The printed result -/

/-- A character of the stem that is not needed to print a result. -/
def printLetter : Language → Char
  | python | r => '_'
  | javaScript | java | cpp | cSharp | php | typeScript | swift | go => 'D'

theorem lacks_formatted (language : Language) (s : Scalar) {value : String}
    (h : Lacks language.printLetter value) :
    Lacks language.printLetter ((language.target.bindings (.scalar s)).formatted value) := by
  cases language <;> cases s <;> exact (lacks_ofList (by decide)).fill h

theorem lacks_delimiter (language : Language) (c : Container) :
    Lacks language.printLetter (language.target.bindings (.container c)).delimiter := by
  cases language <;> cases c <;> exact lacks_ofList (by decide)

theorem lacks_joined (hctx : ctx.Bound language.target.bindings) (c : Container) (e : Scalar)
    {value : String} (h : Lacks language.printLetter value) :
    ∃ text, language.target.backend.joined ctx c e value = .ok text ∧
      Lacks language.printLetter text := by
  have hdelimiter := language.lacks_delimiter c
  have hgeneric : Lacks 'D' (go.target.bindings (.scalar e)).generic := go.lacks_generic e
  have hcontext := hctx.delimiter c
  cases language with
  | cpp =>
    refine ⟨_, Compiled.bind_eq_ok.2 ⟨_, hcontext, rfl⟩, ?_⟩
    cases c
    all_goals repeat' first
      | assumption
      | exact lacks_ofList (by decide)
      | apply Lacks.append
  | go =>
    refine ⟨_, Compiled.bind_eq_ok.2 ⟨_, hcontext, Compiled.bind_eq_ok.2 ⟨_, hctx.generic e,
      Compiled.bind_eq_ok.2 ⟨_, hctx.format _ "item", rfl⟩⟩⟩, ?_⟩
    cases c
    all_goals repeat' first
      | assumption
      | exact lacks_ofList (by decide)
      | apply lacks_formatted go
      | apply Lacks.append
  | _ =>
    cases c
    all_goals
      refine ⟨_, Compiled.bind_eq_ok.2 ⟨_, hcontext, Compiled.bind_eq_ok.2
        ⟨_, hctx.format _ _, rfl⟩⟩, ?_⟩
      repeat' first
        | assumption
        | exact lacks_ofList (by decide)
        | apply lacks_formatted
        | apply Lacks.append

theorem silent_print (hctx : ctx.Bound language.target.bindings) {rendered : String}
    (h : language.target.backend.renderedResult ctx = .ok rendered) :
    Silent language.tokenStem (language.target.backend.print rendered).toList := by
  have hresult : Lacks language.printLetter (language.target.backend.reference resultVariable) := by
    cases language with
    | php => exact (lacks_ofList (by decide)).append (lacks_ofList (by decide))
    | _ => exact lacks_ofList (by decide)
  have hrendered : Lacks language.printLetter rendered := by
    unfold Backend.renderedResult Backend.render at h
    cases hreturns : ctx.signature.returns with
    | scalar s =>
      rw [hreturns] at h
      obtain rfl := Except.ok.inj ((hctx.format _ _).symm.trans h)
      exact language.lacks_formatted s hresult
    | composite c e =>
      rw [hreturns] at h
      obtain ⟨text, htext, hlacks⟩ := lacks_joined hctx c e hresult
      obtain rfl := Except.ok.inj (htext.symm.trans h)
      exact hlacks
  have hprint : Lacks language.printLetter (language.target.backend.print rendered) := by
    cases language <;> exact ((lacks_ofList (by decide)).append hrendered).append
      (lacks_ofList (by decide))
  exact hprint.silent (by cases language <;> decide)

/-- The lines that are the same in every harness. -/
theorem tokenless_scaffold (language : Language) :
    language.Tokenless (language.target.backend.imports .harness ++ [.blank] ++
      language.target.backend.helpers ++ [.blank] ++ language.target.backend.openUnit) ∧
    language.Tokenless (language.target.backend.openMain ++ language.target.backend.readInput) ∧
    language.Tokenless (language.target.backend.closeMain ++
      language.target.backend.closeUnit) := by
  cases language
  all_goals
    refine ⟨?_, ?_, ?_⟩
    all_goals
      exact Step.writes_of_placed (fun _ h => h) 0 (Step.placed_of_spelled Step.map_spell _) rfl
        (by decide +kernel)

/-! ## Indentation -/

theorem edge_indentation (language : Language) (depth : Nat) : Edge language.tokenStem
    (String.join (List.replicate depth language.target.backend.indentUnit)).toList := by
  induction depth with
  | zero => exact .nil
  | succ depth ih =>
    rw [List.replicate_succ, String.join_cons]
    refine Edge.append ?_ ih
    cases language <;> decide

theorem silent_indented (language : Language) {text : String}
    (h : Silent language.tokenStem text.toList) (depth : Nat) : Silent language.tokenStem
      (Writer.indented language.target.backend.indentUnit depth text).toList := by
  unfold Writer.indented
  split
  · exact Edge.nil.toSilent
  · exact (language.edge_indentation depth).append_silent h

theorem carries_indented (language : Language) {index : Nat} {text : String}
    (h : Carries language.tokenStem (language.target.backend.token index) text) (depth : Nat) :
    Carries language.tokenStem (language.target.backend.token index)
      (Writer.indented language.target.backend.indentUnit depth text) := by
  unfold Writer.indented
  split
  · next hempty => exact String.isEmpty_iff.1 hempty ▸ h
  · exact h.ahead (language.edge_indentation depth)

end Language

end StructuredCall
