import StructuredCall.Proofs.Word
import StructuredCall.Scope

/-!
# Claiming names

A declaration that succeeds claims the name of the input and, for a composite, the name of its
size constant. It succeeds exactly when the name is admissible and nothing that it claims is
taken.
-/

namespace StructuredCall.Scope

/-- The claimed names, the latest last. -/
def names (scope : Scope) : List String :=
  scope.symbols.map (·.name)

/-- The names that an input claims. -/
def claims (name : String) (isComposite : Bool) : List String :=
  if isComposite then [name, Name.sizeName name] else [name]

theorem claims_nodup (name : String) (isComposite : Bool) : (claims name isComposite).Nodup := by
  cases isComposite <;> simp [claims, (Name.sizeName_ne name).symm]

@[simp] theorem names_empty : ({} : Scope).names = [] := rfl

theorem names_append (scope : Scope) (symbols : List Symbol) :
    names ⟨scope.symbols ++ symbols⟩ = scope.names ++ symbols.map (·.name) := by
  simp [names]

theorem lookup_eq_none {scope : Scope} {name : String} :
    scope.lookup name = none ↔ name ∉ scope.names := by
  simp [lookup, names]

/-! ## One name -/

theorem claim_of_free {scope : Scope} {name : String} (h : name ∉ scope.names)
    (kind : Symbol.Kind) (line : Line) :
    scope.claim name kind line = .ok ⟨scope.symbols ++ [⟨name, kind, line.number⟩]⟩ := by
  unfold claim define
  rw [lookup_eq_none.2 h]

theorem claim_of_taken {scope : Scope} {name : String} (h : name ∈ scope.names)
    (kind : Symbol.Kind) (line : Line) :
    scope.claim name kind line = .error (.duplicateName name line) := by
  unfold claim define
  cases hl : scope.lookup name with
  | none => exact absurd h (lookup_eq_none.1 hl)
  | some holder => rfl

/-! ## One declaration -/

/-- The scope after an input was declared on a line. -/
def declared (scope : Scope) (name : String) (isComposite : Bool) (line : Line) : Scope :=
  ⟨scope.symbols ++ ⟨name, .input, line.number⟩ ::
    if isComposite then [⟨Name.sizeName name, .sizeConstant, line.number⟩] else []⟩

theorem names_declared (scope : Scope) (name : String) (isComposite : Bool) (line : Line) :
    (scope.declared name isComposite line).names = scope.names ++ claims name isComposite := by
  cases isComposite <;> simp [declared, names, claims]

/-- An input may be declared: its name is admissible and what it claims is free. -/
structure Admits (scope : Scope) (name : String) (isComposite : Bool) : Prop where
  admissible : Name.Admissible name
  free : ∀ claimed ∈ claims name isComposite, claimed ∉ scope.names

/-- **What may be declared is declared.** -/
theorem declare_of_admits {scope : Scope} {name : String} {isComposite : Bool}
    (h : scope.Admits name isComposite) (line : Line) :
    scope.declare name isComposite line = (scope.declared name isComposite line, .ok ()) := by
  obtain ⟨hid, hres⟩ := (Name.admissible_iff name).1 h.admissible
  have hname : name ∉ scope.names := h.free name (by cases isComposite <;> simp [claims])
  unfold declare
  simp only [hid, claim_of_free hname, hres, Bool.not_true, Bool.false_eq_true, if_false]
  cases isComposite with
  | false => rfl
  | true =>
    have hsize : Name.sizeName name ∉ names ⟨scope.symbols ++ [⟨name, .input, line.number⟩]⟩ := by
      rw [names_append]
      simp [h.free (Name.sizeName name) (by simp [claims]), Name.sizeName_ne name]
    simp [claim_of_free hsize, declared]

/-- **Nothing else is declared.** -/
theorem admits_of_declare {scope : Scope} {name : String} {isComposite : Bool} {line : Line}
    {after : Scope} (h : scope.declare name isComposite line = (after, .ok ())) :
    scope.Admits name isComposite := by
  unfold declare at h
  by_cases hid : Name.isIdentifier name
  swap
  · simp [hid] at h
  by_cases hname : name ∈ scope.names
  · simp [hid, claim_of_taken hname] at h
  by_cases hres : Name.isReserved name
  · simp [hid, claim_of_free hname, hres] at h
  refine ⟨(Name.admissible_iff name).2 ⟨hid, by simpa using hres⟩, ?_⟩
  cases isComposite with
  | false => simpa [claims] using hname
  | true =>
    simp only [hid, claim_of_free hname, hres, Bool.not_true, Bool.false_eq_true, if_false] at h
    have hsize : Name.sizeName name ∉ scope.names := by
      intro hmem
      have htaken :
          Name.sizeName name ∈ names ⟨scope.symbols ++ [⟨name, .input, line.number⟩]⟩ := by
        rw [names_append]
        exact List.mem_append_left _ hmem
      simp [claim_of_taken htaken] at h
    simp [claims, hname, hsize]

end StructuredCall.Scope
