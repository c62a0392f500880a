import Mathlib.Tactic.Choose
import StructuredCall.Proofs.Registry

/-!
# What programs ask of a registry

Every part of a generated program is written from the signature and from what the registry binds
in one language. Nothing else of the registry is looked at, so two registries with the same answers
give the same part, error or not; and where every question has an answer the part is there.

A part like that is called `Determined`. The notion is closed under the steps that parts are
written with, so each part of each language is shown to be determined along its definition. In the
contexts whose bindings are those of one table, a determined part is always the same; then it is
called `Settled`.

Main results: `Language.determined_stub`, `Language.determined_callLine`,
`Language.determined_renderedResult` and `Language.determined_harness`.
-/

namespace StructuredCall

/-- What a registry binds the kinds to in one language. -/
abbrev Answers := Kind → Compiled Binding

/-- Every kind is bound. -/
def Answers.Total (answers : Answers) : Prop :=
  ∀ kind, ∃ binding, answers kind = .ok binding

/-- What the registry of a context binds in its language. -/
def Context.answers (ctx : Context) : Answers :=
  fun kind => ctx.registry.lookup kind ctx.language

/-- In the contexts with the signature the part follows from what is bound, and it is there when
every kind is bound. -/
def Determined {ε α : Type} (signature : Signature) (part : Context → Except ε α) : Prop :=
  ∃ result : Answers → Except ε α,
    (∀ ctx : Context, ctx.signature = signature → part ctx = result ctx.answers) ∧
    ∀ answers : Answers, answers.Total → ∃ a, result answers = .ok a

/-- In every context with the signature in which the kinds are bound as the table says, the part
is there, and it is always the same. -/
def Settled {α : Type} (table : BindingTable) (signature : Signature)
    (part : Context → Compiled α) : Prop :=
  ∃ a, ∀ ctx : Context, ctx.signature = signature → ctx.Bound table → part ctx = .ok a

namespace Determined

variable {ε α β : Type} {signature : Signature}

/-! ## What it gives -/

theorem eq_of_answers {part : Context → Except ε α} {ctx ctx' : Context}
    (h : Determined ctx.signature part) (hsignature : ctx'.signature = ctx.signature)
    (hanswers : ctx.answers = ctx'.answers) : part ctx = part ctx' := by
  obtain ⟨result, hresult, -⟩ := h
  rw [hresult ctx rfl, hresult ctx' hsignature, hanswers]

theorem exists_ok {part : Context → Except ε α} {ctx : Context}
    (h : Determined ctx.signature part) (htotal : ctx.answers.Total) :
    ∃ a, part ctx = .ok a := by
  obtain ⟨result, hresult, hok⟩ := h
  rw [hresult ctx rfl]
  exact hok _ htotal

/-- With the bindings of one table the part is always the same. -/
theorem settled {table : BindingTable} {part : Context → Compiled α}
    (h : Determined signature part) : Settled table signature part := by
  obtain ⟨result, hresult, hok⟩ := h
  obtain ⟨a, ha⟩ := hok (fun kind => .ok (table kind)) fun kind => ⟨_, rfl⟩
  refine ⟨a, fun ctx hsignature hbound => ?_⟩
  rw [hresult ctx hsignature, ← ha]
  exact congrArg result (funext hbound)

/-! ## Steps -/

protected theorem pure (a : α) : Determined signature fun _ => (.ok a : Except ε α) :=
  ⟨fun _ => .ok a, fun _ _ => rfl, fun _ _ => ⟨a, rfl⟩⟩

protected theorem bind {part : Context → Except ε α} {next : Context → α → Except ε β}
    (hpart : Determined signature part)
    (hnext : ∀ a, Determined signature fun ctx => next ctx a) :
    Determined signature fun ctx => part ctx >>= next ctx := by
  obtain ⟨result, hresult, hok⟩ := hpart
  choose nextResult hnextResult hnextOk using hnext
  refine ⟨fun answers => result answers >>= fun a => nextResult a answers, ?_, ?_⟩
  · intro ctx hsignature
    show part ctx >>= next ctx = _
    rw [hresult ctx hsignature]
    exact congrArg _ (funext fun a => hnextResult a ctx hsignature)
  · intro answers htotal
    obtain ⟨a, ha⟩ := hok answers htotal
    obtain ⟨b, hb⟩ := hnextOk a answers htotal
    exact ⟨b, Compiled.bind_eq_ok.2 ⟨a, ha, hb⟩⟩

/-- What is read off the signature alone is determined. -/
protected theorem read (f : Context → α)
    (h : ∀ ctx : Context, f ctx = f ⟨ctx.signature, default, default, default⟩) :
    Determined signature fun ctx => (.ok (f ctx) : Except ε α) := by
  refine ⟨fun _ => .ok (f ⟨signature, default, default, default⟩), ?_, fun _ _ => ⟨_, rfl⟩⟩
  rintro ctx rfl
  exact congrArg Except.ok (h ctx)

/-- A part may look at the signature. -/
theorem of_eq {part part' : Context → Except ε α} (h : Determined signature part')
    (heq : ∀ ctx : Context, ctx.signature = signature → part ctx = part' ctx) :
    Determined signature part := by
  obtain ⟨result, hresult, hok⟩ := h
  exact ⟨result, fun ctx hsignature => (heq ctx hsignature).trans (hresult ctx hsignature), hok⟩

/-! ## Questions -/

/-- The binding of a kind is what all questions are about. -/
protected theorem lookup (kind : Kind) :
    Determined signature fun ctx => ctx.registry.lookup kind ctx.language :=
  ⟨fun answers => answers kind, fun _ _ => rfl, fun _ htotal => htotal kind⟩

protected theorem generic (scalar : Scalar) : Determined signature (·.generic scalar) :=
  .bind (.lookup _) fun _ => .pure _

protected theorem native (type : DataType) : Determined signature (·.native type) := by
  refine .bind (.lookup _) fun binding => ?_
  cases type with
  | scalar s => exact .pure _
  | composite c e => exact .bind (.lookup _) fun _ => .pure _

protected theorem parse (kind : Kind) (source : String) :
    Determined signature (·.parse kind source) :=
  .bind (.lookup kind) fun _ => .pure _

protected theorem format (kind : Kind) (value : String) :
    Determined signature (·.format kind value) :=
  .bind (.lookup kind) fun _ => .pure _

protected theorem delimiter (container : Container) :
    Determined signature (·.delimiter container) :=
  .bind (.lookup _) fun _ => .pure _

protected theorem defaultValue : Determined signature Context.defaultValue := by
  have h : Determined signature fun ctx =>
      ctx.registry.defaultValue signature.returns ctx.language := by
    refine .bind (.lookup _) fun binding => ?_
    cases signature.returns with
    | scalar s => exact .pure _
    | composite c e => exact .bind (.generic e) fun _ => .pure _
  exact .of_eq h (by rintro ctx rfl; rfl)

protected theorem returnType : Determined signature Context.returnType :=
  .of_eq (.native signature.returns) (by rintro ctx rfl; rfl)

protected theorem mapM {γ : Type} {part : Context → γ → Except ε α}
    (h : ∀ c, Determined signature fun ctx => part ctx c) (xs : List γ) :
    Determined signature fun ctx => xs.mapM (part ctx) := by
  induction xs with
  | nil => exact .pure []
  | cons x xs ih =>
    simp only [List.mapM_cons]
    exact .bind (h x) fun _ => .bind ih fun _ => .pure _

protected theorem parameters (write : String → String → String) :
    Determined signature (·.parameters write) := by
  have hparameter (input : Parameter) : Determined signature fun ctx =>
      return write input.name (← ctx.native input.type) :=
    .bind (.native input.type) fun _ => .pure _
  exact .of_eq (.mapM hparameter signature.inputs) (by rintro ctx rfl; rfl)

protected theorem parameterList (write : String → String → String) :
    Determined signature (·.parameterList write) :=
  .bind (.parameters write) fun _ => .pure _

end Determined

/-! ## The languages -/

namespace Language

variable (language : Language) {signature : Signature}

theorem determined_sequence (c : Container) (e : Scalar) (token : String) :
    Determined signature fun ctx => language.target.backend.sequence ctx c e token := by
  cases language with
  | cpp => exact .bind (.parse _ _) fun _ => .pure _
  | go => exact .bind (.generic e) fun _ => .bind (.parse _ _) fun _ => .pure _
  | r =>
    cases c with
    | map => exact .bind (.parse _ _) fun _ => .pure _
    | array | set => exact .parse _ _
  | python | javaScript | typeScript | java | cSharp | php | swift =>
    cases c <;> exact .bind (.parse _ _) fun _ => .pure _

theorem determined_joined (c : Container) (e : Scalar) (value : String) :
    Determined signature fun ctx => language.target.backend.joined ctx c e value := by
  cases language with
  | cpp => exact .bind (.delimiter c) fun _ => .pure _
  | go =>
    exact .bind (.delimiter c) fun _ => .bind (.generic e) fun _ => .bind (.format _ _) fun _ =>
      .pure _
  | python | javaScript | typeScript | java | cSharp | php | r | swift =>
    refine .bind (.delimiter c) fun _ => ?_
    cases c <;> exact .bind (.format _ _) fun _ => .pure _

theorem determined_stubDoc : Determined signature language.target.backend.stubDoc := by
  cases language with
  | javaScript | r => exact .bind (.parameters _) fun _ => .bind .returnType fun _ => .pure _
  | _ => exact .pure _

theorem determined_signatureLine :
    Determined signature language.target.backend.signatureLine := by
  cases language with
  | javaScript | r => exact .read _ fun _ => rfl
  | _ => exact .bind (.parameterList _) fun _ => .bind .returnType fun _ => .pure _

theorem determined_declare (name : String) (type : DataType) (value : String) :
    Determined signature fun ctx => language.target.backend.declare ctx name type value := by
  cases language with
  | typeScript | java | cpp | cSharp | swift => exact .bind (.native type) fun _ => .pure _
  | _ => exact .pure _

theorem determined_sizeConstant (name : String) (size : Nat) : Determined signature fun ctx =>
    language.target.style.sizeConstant language.target.backend ctx name size := by
  cases language with
  | go => exact .pure _
  | python => exact determined_declare python name (.scalar .integer) _
  | javaScript => exact determined_declare javaScript name (.scalar .integer) _
  | java => exact determined_declare java name (.scalar .integer) _
  | cpp => exact determined_declare cpp name (.scalar .integer) _
  | cSharp => exact determined_declare cSharp name (.scalar .integer) _
  | php => exact determined_declare php name (.scalar .integer) _
  | r => exact determined_declare r name (.scalar .integer) _
  | typeScript => exact determined_declare typeScript name (.scalar .integer) _
  | swift => exact determined_declare swift name (.scalar .integer) _

theorem determined_compositeLiteral (c : Container) (e : Scalar) (items : List String) :
    Determined signature fun ctx => language.target.style.compositeLiteral ctx c e items := by
  cases language with
  | go => exact .bind (.native _) fun _ => .pure _
  | cSharp =>
    refine .bind (.native _) fun _ => ?_
    cases items <;> exact .pure _
  | _ => exact .pure _

/-! ## The stub and the harness -/

theorem determined_stubBody (body : Option String) :
    Determined signature (language.target.backend.stubBody · body) := by
  cases body with
  | some body => exact .pure _
  | none => exact .bind .defaultValue fun _ => .pure _

theorem determined_stub (body : Option String) :
    Determined signature (language.target.backend.stub · body) :=
  .bind language.determined_stubDoc fun _ => .bind language.determined_signatureLine fun _ =>
    .bind (language.determined_stubBody body) fun _ => .pure _

theorem determined_callLine : Determined signature language.target.backend.callLine :=
  .of_eq (language.determined_declare resultVariable signature.returns
    (language.target.backend.call signature)) (by rintro ctx rfl; rfl)

theorem determined_render (type : DataType) (value : String) :
    Determined signature (language.target.backend.render · type value) := by
  cases type with
  | scalar s => exact .format _ _
  | composite c e => exact language.determined_joined c e value

theorem determined_renderedResult :
    Determined signature language.target.backend.renderedResult :=
  .of_eq (language.determined_render signature.returns
    (language.target.backend.reference resultVariable)) (by rintro ctx rfl; rfl)

theorem determined_decode (type : DataType) (token : String) :
    Determined signature (language.target.backend.decode · type token) := by
  cases type with
  | scalar s => exact .parse _ _
  | composite c e => exact .bind (language.determined_sequence c e token) fun _ => .parse _ _

theorem determined_inputLines (index : Nat) (inputs : List Parameter) :
    Determined signature (language.target.backend.inputLines · index inputs) := by
  induction inputs generalizing index with
  | nil => exact .pure []
  | cons input inputs ih =>
    have hline : Determined signature (language.target.backend.inputLine · index input) :=
      .bind (language.determined_decode _ _) fun _ =>
        .bind (language.determined_declare _ _ _) fun _ => .pure _
    exact .bind hline fun _ => .bind (ih (index + 1)) fun _ => .pure _

theorem determined_harness : Determined signature language.target.backend.harness := by
  refine .bind ?_ fun _ => .bind language.determined_callLine fun _ =>
    .bind language.determined_renderedResult fun _ => .pure _
  exact .of_eq (language.determined_inputLines 0 signature.inputs) (by rintro ctx rfl; rfl)

end Language

end StructuredCall
