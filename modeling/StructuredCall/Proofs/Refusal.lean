import StructuredCall.Proofs.Scope

/-!
# Refused declarations

Why a declaration is refused decides what it leaves in the scope (`Scope.Refused`). A word that is
no identifier and a name that is taken are found before anything is claimed, and leave nothing. A
reserved word and a size constant whose name is taken are found when the name of the input is
claimed already, and the name stays.

A name that stays is refused from then on, also where it could be declared. Nothing else changes:
declarations that do not claim it come out as if it was not there (`Scope.outcomes_agree`), however
many they are.

Main result: `Scope.refused_declaration_leaves`.
-/

namespace StructuredCall

/-- An input that is to be declared on a line. -/
structure Attempt where
  name : String
  isComposite : Bool
  line : Line
deriving Repr, DecidableEq

namespace Attempt

/-- The names that the input claims. -/
def claims (attempt : Attempt) : List String :=
  Scope.claims attempt.name attempt.isComposite

/-- The symbol of the input, without the one of its size. -/
def symbol (attempt : Attempt) : Symbol :=
  ⟨attempt.name, .input, attempt.line.number⟩

theorem name_mem_claims (attempt : Attempt) : attempt.name ∈ attempt.claims := by
  unfold claims Scope.claims
  split <;> exact List.mem_cons_self

theorem sizeName_mem_claims {attempt : Attempt} (h : attempt.isComposite = true) :
    Name.sizeName attempt.name ∈ attempt.claims := by
  simp [claims, Scope.claims, h]

end Attempt

namespace Scope

/-! ## Runs -/

/-- Declares the input of an attempt. -/
def attempt (scope : Scope) (a : Attempt) : Scope × Compiled Unit :=
  scope.declare a.name a.isComposite a.line

/-- The scope after some attempts, accepted or refused. -/
def reach (scope : Scope) (attempts : List Attempt) : Scope :=
  attempts.foldl (fun scope a => (scope.attempt a).1) scope

/-- How attempts come out, one after the other. -/
def outcomes (scope : Scope) : List Attempt → List (Compiled Unit)
  | [] => []
  | a :: rest => (scope.attempt a).2 :: outcomes (scope.attempt a).1 rest

/-! ## One attempt -/

/-- Why an attempt is refused: the error, and the symbols that are left of it. -/
inductive Refused (scope : Scope) (a : Attempt) : CompileError → List Symbol → Prop
  | notIdentifier : Name.isIdentifier a.name = false →
    Refused scope a (.malformed (.notIdentifier a.name) a.line) []
  | taken : Name.isIdentifier a.name = true → a.name ∈ scope.names →
    Refused scope a (.duplicateName a.name a.line) []
  | reserved : Name.isIdentifier a.name = true → a.name ∉ scope.names →
    Name.isReserved a.name = true → Refused scope a (.reservedWord a.name a.line) [a.symbol]
  | sizeTaken : Name.Admissible a.name → a.name ∉ scope.names → a.isComposite = true →
    Name.sizeName a.name ∈ scope.names →
    Refused scope a (.duplicateName (Name.sizeName a.name) a.line) [a.symbol]

variable {scope other after : Scope} {a : Attempt} {e : CompileError} {left : List Symbol}

theorem attempt_of_refused (h : scope.Refused a e left) :
    scope.attempt a = (⟨scope.symbols ++ left⟩, .error e) := by
  unfold attempt declare
  cases h with
  | notIdentifier hid => simp [hid]
  | taken hid htaken => simp [hid, claim_of_taken htaken]
  | reserved hid hfree hreserved =>
    simp [hid, claim_of_free hfree, hreserved, Attempt.symbol]
  | sizeTaken hadmissible hfree hcomposite hsize =>
    obtain ⟨hid, hreserved⟩ := (Name.admissible_iff a.name).1 hadmissible
    have htaken : Name.sizeName a.name ∈ names ⟨scope.symbols ++ [a.symbol]⟩ := by
      rw [names_append]
      exact List.mem_append_left _ hsize
    simp only [Attempt.symbol] at htaken
    simp [hid, claim_of_free hfree, hreserved, hcomposite, claim_of_taken htaken, Attempt.symbol]

theorem admits_or_refused (scope : Scope) (a : Attempt) :
    scope.Admits a.name a.isComposite ∨ ∃ e left, scope.Refused a e left := by
  cases hid : Name.isIdentifier a.name with
  | false => exact .inr ⟨_, _, .notIdentifier hid⟩
  | true =>
    by_cases hname : a.name ∈ scope.names
    · exact .inr ⟨_, _, .taken hid hname⟩
    cases hreserved : Name.isReserved a.name with
    | true => exact .inr ⟨_, _, .reserved hid hname hreserved⟩
    | false =>
      have hadmissible := (Name.admissible_iff a.name).2 ⟨hid, hreserved⟩
      cases hcomposite : a.isComposite with
      | false => exact .inl ⟨hadmissible, by simpa [claims] using hname⟩
      | true =>
        by_cases hsize : Name.sizeName a.name ∈ scope.names
        · exact .inr ⟨_, _, .sizeTaken hadmissible hname hcomposite hsize⟩
        · exact .inl ⟨hadmissible, by simp [claims, hname, hsize]⟩

/-- **What is refused, and what it leaves.** -/
theorem attempt_eq_error : scope.attempt a = (after, .error e) ↔
    ∃ left, scope.Refused a e left ∧ after = ⟨scope.symbols ++ left⟩ := by
  constructor
  · intro h
    rcases admits_or_refused scope a with hadmits | ⟨e', left, hrefused⟩
    · rw [attempt, declare_of_admits hadmits] at h
      cases h
    · rw [attempt_of_refused hrefused] at h
      cases h
      exact ⟨left, hrefused, rfl⟩
  · rintro ⟨left, hrefused, rfl⟩
    exact attempt_of_refused hrefused

theorem attempt_eq_ok : (scope.attempt a).2 = .ok () ↔ scope.Admits a.name a.isComposite := by
  constructor
  · intro h
    have hdeclare : scope.attempt a = ((scope.attempt a).1, .ok ()) := Prod.ext rfl h
    exact admits_of_declare hdeclare
  · intro h
    rw [attempt, declare_of_admits h]

/-! ## Scopes that differ by one name -/

/-- The scopes hold the same names, one name left aside. -/
def AgreeBut (name : String) (scope other : Scope) : Prop :=
  ∀ claimed, claimed ≠ name → (claimed ∈ scope.names ↔ claimed ∈ other.names)

theorem Refused.of_agreeBut {name : String} (h : AgreeBut name scope other)
    (hname : name ∉ a.claims) (hrefused : scope.Refused a e left) : other.Refused a e left := by
  have hiff : a.name ∈ scope.names ↔ a.name ∈ other.names :=
    h _ fun heq => hname (heq ▸ a.name_mem_claims)
  cases hrefused with
  | notIdentifier hid => exact .notIdentifier hid
  | taken hid htaken => exact .taken hid (hiff.1 htaken)
  | reserved hid hfree hreserved => exact .reserved hid (mt hiff.2 hfree) hreserved
  | sizeTaken hadmissible hfree hcomposite hsize =>
    refine .sizeTaken hadmissible (mt hiff.2 hfree) hcomposite ((h _ fun heq => ?_).1 hsize)
    exact hname (heq ▸ Attempt.sizeName_mem_claims hcomposite)

theorem Admits.of_agreeBut {name : String} (h : AgreeBut name scope other)
    (hname : name ∉ a.claims) (hadmits : scope.Admits a.name a.isComposite) :
    other.Admits a.name a.isComposite := by
  refine ⟨hadmits.admissible, fun claimed hclaimed hmem => ?_⟩
  exact hadmits.free claimed hclaimed ((h claimed fun heq => hname (heq ▸ hclaimed)).2 hmem)

/-- An attempt that does not claim the name comes out the same, and the scopes stay the same but
for the name. -/
theorem attempt_agree {name : String} (h : AgreeBut name scope other) (hname : name ∉ a.claims) :
    (scope.attempt a).2 = (other.attempt a).2 ∧
      AgreeBut name (scope.attempt a).1 (other.attempt a).1 := by
  rcases admits_or_refused scope a with hadmits | ⟨e, left, hrefused⟩
  · have hother := hadmits.of_agreeBut h hname
    simp only [attempt, declare_of_admits hadmits, declare_of_admits hother]
    refine ⟨trivial, fun claimed hne => ?_⟩
    simp only [names_declared, List.mem_append, h claimed hne]
  · simp only [attempt_of_refused hrefused, attempt_of_refused (hrefused.of_agreeBut h hname)]
    refine ⟨trivial, fun claimed hne => ?_⟩
    simp only [names_append, List.mem_append, h claimed hne]

/-- **Attempts that do not claim the name come out the same.** -/
theorem outcomes_agree {name : String} {later : List Attempt} (h : AgreeBut name scope other)
    (hlater : ∀ next ∈ later, name ∉ next.claims) :
    outcomes scope later = outcomes other later := by
  induction later generalizing scope other with
  | nil => rfl
  | cons next later ih =>
    obtain ⟨hnext, hlater⟩ := List.forall_mem_cons.1 hlater
    obtain ⟨houtcome, hagree⟩ := attempt_agree h hnext
    rw [outcomes, outcomes, houtcome, ih hagree hlater]

theorem agreeBut_append (scope : Scope) (symbol : Symbol) :
    AgreeBut symbol.name ⟨scope.symbols ++ [symbol]⟩ scope := by
  intro claimed hne
  simp [names_append, hne]

/-! ## What a refusal leaves -/

/-- What is refused before its name is claimed leaves nothing. Otherwise the name stays, and it was
free before. -/
theorem Refused.left_cases (h : scope.Refused a e left) :
    (left = [] ∧ (Name.isIdentifier a.name = false ∨ a.name ∈ scope.names)) ∨
      (left = [a.symbol] ∧ Name.isIdentifier a.name = true ∧ a.name ∉ scope.names ∧
        e ≠ .duplicateName a.name a.line) := by
  cases h with
  | notIdentifier hid => exact .inl ⟨rfl, .inl hid⟩
  | taken _ htaken => exact .inl ⟨rfl, .inr htaken⟩
  | reserved hid hfree _ => exact .inr ⟨rfl, hid, hfree, by simp⟩
  | sizeTaken hadmissible hfree _ _ =>
    refine .inr ⟨rfl, ((Name.admissible_iff a.name).1 hadmissible).1, hfree, ?_⟩
    simp [Name.sizeName_ne a.name]

/-- **A refused declaration leaves its name, unless the name was no identifier or was taken.** It is
refused again for the same reason exactly if nothing is left. What could be declared before still
can, unless the name is left and is one that it claims; declarations that do not claim the name come
out as before. -/
theorem refused_declaration_leaves {attempts : List Attempt}
    (h : (reach {} attempts).attempt a = (after, .error e)) :
    let scope := reach {} attempts
    (after = scope ∨ after = ⟨scope.symbols ++ [a.symbol]⟩) ∧
    (after = scope ↔ Name.isIdentifier a.name = false ∨ a.name ∈ scope.names) ∧
    ((after.attempt a).2 = .error e ↔ after = scope) ∧
    (∀ next, (scope.attempt next).2 = .ok () →
      ((after.attempt next).2 = .ok () ↔ after = scope ∨ a.name ∉ next.claims)) ∧
    ∀ later, (∀ next ∈ later, a.name ∉ next.claims) →
      outcomes after later = outcomes scope later := by
  -- Nothing in the argument depends on how the scope was reached.
  generalize reach {} attempts = scope at h ⊢
  obtain ⟨left, hrefused, rfl⟩ := attempt_eq_error.1 h
  rcases hrefused.left_cases with ⟨rfl, hcause⟩ | ⟨rfl, hid, hfree, he⟩
  · have hsame : (⟨scope.symbols ++ []⟩ : Scope) = scope := by rw [List.append_nil]
    rw [hsame] at h ⊢
    simp [h, hcause]
  · have hne : (⟨scope.symbols ++ [a.symbol]⟩ : Scope) ≠ scope := fun heq => by
      simpa using congrArg Scope.symbols heq
    have hheld : a.name ∈ names ⟨scope.symbols ++ [a.symbol]⟩ := by
      simp [names_append, Attempt.symbol]
    have hagree : AgreeBut a.name ⟨scope.symbols ++ [a.symbol]⟩ scope :=
      agreeBut_append scope a.symbol
    refine ⟨.inr rfl, ?_, ?_, fun next hnext => ?_, fun later => outcomes_agree hagree⟩
    · simp [hne, hid, hfree]
    · simp only [hne, iff_false, attempt_of_refused (.taken hid hheld)]
      simpa using Ne.symm he
    · rw [or_iff_right hne]
      constructor
      · intro hagain hclaimed
        exact (attempt_eq_ok.1 hagain).free _ hclaimed hheld
      · exact fun hclaims => (attempt_agree hagree hclaims).1.trans hnext

/-- A composite whose size constant clashes: its name is refused to a scalar, and to nothing
else. -/
theorem refused_declaration_leaves_of_size :
    let size : Attempt := ⟨"xSize", false, ⟨1, "xSize", ⟨0, 5⟩⟩⟩
    let composite : Attempt := ⟨"x", true, ⟨2, "x", ⟨0, 1⟩⟩⟩
    let scalar : Attempt := ⟨"x", false, ⟨3, "x", ⟨0, 1⟩⟩⟩
    let after : Scope := ⟨[size.symbol, composite.symbol]⟩
    (reach {} [size]).attempt composite = (after, .error (.duplicateName "xSize" composite.line)) ∧
      (after.attempt scalar).2 ≠ .ok () ∧
      outcomes after [⟨"y", true, default⟩, ⟨"ySize", false, default⟩] =
        outcomes (reach {} [size]) [⟨"y", true, default⟩, ⟨"ySize", false, default⟩] := by
  intro size composite scalar after
  have hrefused : (reach {} [size]).attempt composite =
      (after, .error (.duplicateName "xSize" composite.line)) := by
    decide +kernel
  obtain ⟨-, -, -, hnext, hlater⟩ := refused_declaration_leaves hrefused
  refine ⟨hrefused, fun hscalar => ?_, hlater _ (by decide +kernel)⟩
  rcases (hnext scalar (by decide +kernel)).1 hscalar with hsame | hclaims
  · exact absurd hsame (by decide +kernel)
  · exact hclaims (by decide +kernel)

/-- After a composite was refused because of its size constant, a scalar of its name is. -/
theorem refused_declaration_leaves_not_nothing :
    ¬ ∀ (attempts : List Attempt) (a : Attempt) (after : Scope) (e : CompileError),
      (reach {} attempts).attempt a = (after, .error e) →
      after = reach {} attempts ∧ (after.attempt a).2 = .error e ∧
        ∀ next, ((reach {} attempts).attempt next).2 = .ok () →
          (after.attempt next).2 = .ok () := by
  intro h
  obtain ⟨-, -, hnext⟩ := h [⟨"xSize", false, ⟨1, "xSize", ⟨0, 5⟩⟩⟩]
    ⟨"x", true, ⟨2, "x", ⟨0, 1⟩⟩⟩ ⟨[⟨"xSize", .input, 1⟩, ⟨"x", .input, 2⟩]⟩
    (.duplicateName "xSize" ⟨2, "x", ⟨0, 1⟩⟩) (by decide +kernel)
  exact absurd (hnext ⟨"x", false, ⟨3, "x", ⟨0, 1⟩⟩⟩ (by decide +kernel)) (by decide +kernel)

end Scope

end StructuredCall
