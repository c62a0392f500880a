import Mathlib.Control.Monad.Basic
import Mathlib.Data.List.ProdSigma
import StructuredCall.Generator

/-!
# Bound kinds

What a generated program asks of a registry is answered from the bindings of one language. Where
every kind is bound, those bindings form a table, and each answer is read off it.

* `Registry.ofRows_eq_error` — a registry is refused for the first gap that a lookup would meet.
* `Registry.Binds` — in a language the bindings are those of a table.
* `Registry.exists_binds` — a registry that leaves no gap has a table for each of its languages.
* `Registry.standard_binds` — the tables of the standard registry are those of the languages.
-/

namespace StructuredCall

theorem Kind.mem_all (kind : Kind) : kind ∈ Kind.all := by
  rcases kind with s | c
  · cases s <;> decide
  · cases c <;> decide

theorem Language.mem_all (language : Language) : language ∈ Language.all := by
  cases language <;> decide

namespace BindingTable

def native (table : BindingTable) : DataType → String
  | .scalar s => (table (.scalar s)).native
  | .composite c e => Text.fill (table (.container c)).native (table (.scalar e)).generic

end BindingTable

namespace Registry

/-- In a language, the registry binds every kind as the table says. -/
def Binds (registry : Registry) (language : Language) (table : BindingTable) : Prop :=
  ∀ kind, registry.lookup kind language = .ok (table kind)

/-! ## Looking up -/

theorem isGiven_iff {registry : Registry} {kind : Kind} {language : Language} :
    registry.isGiven kind language = true ↔
      ∃ row ∈ registry.rows, row.kind = kind ∧ row.language = language := by
  simp [isGiven]

/-- Of several rows for one kind and language the last counts. -/
theorem given?_eq_some {registry : Registry} {kind : Kind} {language : Language}
    {binding : Binding} : registry.given? kind language = some binding ↔
      ∃ before after, registry.rows = before ++ ⟨kind, language, binding⟩ :: after ∧
        ∀ row ∈ after, ¬(row.kind = kind ∧ row.language = language) := by
  simp only [given?, Option.map_eq_some_iff, List.find?_eq_some_iff_append]
  constructor
  · rintro ⟨row, ⟨hrow, after, before, hsplit, hafter⟩, rfl⟩
    obtain ⟨rfl, rfl⟩ : row.kind = kind ∧ row.language = language := by simpa using hrow
    refine ⟨before.reverse, after.reverse, ?_, fun later hlater => ?_⟩
    · rw [← List.reverse_reverse registry.rows, hsplit]
      simp
    · simpa only [Bool.not_eq_true', decide_eq_false_iff_not] using
        hafter later (List.mem_reverse.1 hlater)
  · rintro ⟨before, after, hsplit, hafter⟩
    refine ⟨⟨kind, language, binding⟩, ⟨by simp, after.reverse, before.reverse, ?_, ?_⟩, rfl⟩
    · simp [hsplit]
    · intro later hlater
      simpa only [Bool.not_eq_true', decide_eq_false_iff_not] using
        hafter later (List.mem_reverse.1 hlater)

theorem row_of_given? {registry : Registry} {kind : Kind} {language : Language}
    {binding : Binding} (h : registry.given? kind language = some binding) :
    ⟨kind, language, binding⟩ ∈ registry.rows := by
  obtain ⟨before, after, hsplit, -⟩ := given?_eq_some.1 h
  simp [hsplit]

theorem given?_isSome {registry : Registry} {kind : Kind} {language : Language} :
    (registry.given? kind language).isSome = registry.isGiven kind language := by
  rw [given?, Option.isSome_map, Bool.eq_iff_iff, List.find?_isSome, isGiven_iff]
  simp

theorem binding?_isSome {registry : Registry} {kind : Kind} {language : Language} :
    (registry.binding? kind language).isSome = registry.isCovered kind language := by
  rw [isCovered, ← given?_isSome, ← given?_isSome]
  unfold binding?
  cases registry.given? kind language with
  | some binding => rfl
  | none =>
    cases hfallback : registry.lenient && !kind.isComposite <;> simp

/-- **Validation and lookup agree.** A kind is covered exactly when it is found. -/
theorem exists_lookup_iff {registry : Registry} {kind : Kind} {language : Language} :
    (∃ binding, registry.lookup kind language = .ok binding) ↔
      registry.isCovered kind language = true := by
  rw [← binding?_isSome, lookup]
  cases registry.binding? kind language <;> simp

/-! ## Registries without gaps -/

theorem gaps_eq_nil {registry : Registry} : registry.gaps = [] ↔
    ∀ language ∈ registry.languages, ∀ kind, registry.isCovered kind language = true := by
  simp [gaps, List.flatMap_eq_nil_iff, List.filter_eq_nil_iff, Kind.mem_all]

theorem ofRows_eq_ok {rows : List BindingRow} {languages : List Language} {lenient : Bool}
    {registry : Registry} : ofRows rows languages lenient = .ok registry ↔
      registry = ⟨rows, languages, lenient⟩ ∧ registry.gaps = [] := by
  simp only [ofRows]
  constructor
  · intro h
    split at h
    · next hgaps =>
      cases h
      exact ⟨rfl, hgaps⟩
    · cases h
  · rintro ⟨rfl, hgaps⟩
    simp only [hgaps]

/-- **A registry without gaps has a table for each of its languages.** -/
theorem exists_binds {rows : List BindingRow} {languages : List Language} {lenient : Bool}
    {registry : Registry} (h : ofRows rows languages lenient = .ok registry)
    {language : Language} (hlanguage : language ∈ languages) :
    ∃ table, registry.Binds language table := by
  obtain ⟨rfl, hgaps⟩ := ofRows_eq_ok.1 h
  have hcovered := gaps_eq_nil.1 hgaps language hlanguage
  exact ⟨fun kind => (exists_lookup_iff.2 (hcovered kind)).choose,
    fun kind => (exists_lookup_iff.2 (hcovered kind)).choose_spec⟩

/-! ## Registries with gaps -/

/-- The kind is the first, language by language, that is not found. -/
def FirstGap (registry : Registry) (kind : Kind) (language : Language) : Prop :=
  ∃ before after, registry.languages ×ˢ Kind.all = before ++ (language, kind) :: after ∧
    (∀ asked ∈ before, ∃ binding, registry.lookup asked.2 asked.1 = .ok binding) ∧
    ∀ binding, registry.lookup kind language ≠ .ok binding

theorem gaps_eq (registry : Registry) :
    registry.gaps = ((registry.languages ×ˢ Kind.all).filter fun asked =>
      !registry.isCovered asked.2 asked.1).map Prod.swap := by
  simp only [gaps, SProd.sprod, List.product, List.filter_flatMap, List.filter_map,
    List.map_flatMap, List.map_map]
  rfl

theorem firstGap_iff {registry : Registry} {kind : Kind} {language : Language} :
    registry.FirstGap kind language ↔ registry.gaps.head? = some (kind, language) := by
  simp only [FirstGap, ← not_exists, exists_lookup_iff, gaps_eq, List.head?_map,
    List.head?_filter, Option.map_eq_some_iff, List.find?_eq_some_iff_append]
  constructor
  · rintro ⟨before, after, hsplit, hbefore, hgap⟩
    exact ⟨(language, kind), ⟨by simpa using hgap, before, after, hsplit, by simpa using hbefore⟩,
      rfl⟩
  · rintro ⟨asked, ⟨hgap, before, after, hsplit, hbefore⟩, h⟩
    cases h
    exact ⟨before, after, hsplit, by simpa using hbefore, by simpa using hgap⟩

/-- **A registry is refused for its first gap.** -/
theorem ofRows_eq_error {rows : List BindingRow} {languages : List Language} {lenient : Bool}
    {e : CompileError} : ofRows rows languages lenient = .error e ↔
      ∃ kind language, FirstGap ⟨rows, languages, lenient⟩ kind language ∧
        e = .missingBinding kind language := by
  simp only [firstGap_iff, ofRows]
  cases gaps ⟨rows, languages, lenient⟩ with
  | nil => simp
  | cons gap gaps =>
    obtain ⟨kind, language⟩ := gap
    simp [eq_comm]

/-! ## The standard registry -/

theorem mem_standardRows {row : BindingRow} :
    row ∈ standardRows ↔ row.binding = row.language.target.bindings row.kind := by
  obtain ⟨kind, language, binding⟩ := row
  simp [standardRows, BindingTable.rows, Language.mem_all, Kind.mem_all, eq_comm]

theorem standard_isGiven (lenient : Bool) (kind : Kind) (language : Language) :
    isGiven ⟨standardRows, Language.all, lenient⟩ kind language = true :=
  isGiven_iff.2 ⟨⟨kind, language, language.target.bindings kind⟩, mem_standardRows.2 rfl, rfl, rfl⟩

theorem standard_binds (lenient : Bool) (language : Language) :
    Binds ⟨standardRows, Language.all, lenient⟩ language language.target.bindings := by
  intro kind
  obtain ⟨binding, hbinding⟩ :=
    Option.isSome_iff_exists.1 (given?_isSome.trans (standard_isGiven lenient kind language))
  have hrow : binding = language.target.bindings kind :=
    mem_standardRows.1 (row_of_given? hbinding)
  simp [lookup, binding?, hbinding, hrow]

/-- Bindings may be added to the standard ones. -/
theorem ofRows_standard_append (rows : List BindingRow) (lenient : Bool) :
    ofRows (standardRows ++ rows) Language.all lenient =
      .ok ⟨standardRows ++ rows, Language.all, lenient⟩ := by
  refine ofRows_eq_ok.2 ⟨rfl, gaps_eq_nil.2 fun language _ kind => ?_⟩
  obtain ⟨row, hrow, hkind⟩ := isGiven_iff.1 (standard_isGiven lenient kind language)
  have hgiven : isGiven ⟨standardRows ++ rows, Language.all, lenient⟩ kind language = true :=
    isGiven_iff.2 ⟨row, List.mem_append_left rows hrow, hkind⟩
  rw [isCovered, hgiven, Bool.true_or]

theorem standard_eq (lenient : Bool) :
    Registry.standard lenient = .ok ⟨standardRows, Language.all, lenient⟩ := by
  refine ofRows_eq_ok.2 ⟨rfl, gaps_eq_nil.2 fun language _ kind => ?_⟩
  simp [isCovered, standard_isGiven lenient kind language]

theorem binds_of_standard {lenient : Bool} {registry : Registry}
    (h : Registry.standard lenient = .ok registry) (language : Language) :
    registry.Binds language language.target.bindings := by
  obtain rfl : registry = ⟨standardRows, Language.all, lenient⟩ := by
    simpa [standard_eq, eq_comm] using h
  exact standard_binds lenient language

end Registry

/-! ## Contexts -/

/-- The kinds are bound, in the language of the context, as the table says. -/
def Context.Bound (ctx : Context) (table : BindingTable) : Prop :=
  ctx.registry.Binds ctx.language table

namespace Context.Bound

variable {ctx : Context} {table : BindingTable} (h : ctx.Bound table)
include h

theorem native (type : DataType) : ctx.native type = .ok (table.native type) := by
  cases type with
  | scalar s => simp [Context.native, Registry.native, h _, DataType.kind, BindingTable.native]
  | composite c e =>
    simp [Context.native, Registry.native, h _, DataType.kind, BindingTable.native]

theorem generic (scalar : Scalar) :
    ctx.generic scalar = .ok (table (.scalar scalar)).generic := by
  rw [Context.generic, Registry.generic, h (.scalar scalar)]
  rfl

theorem parse (kind : Kind) (source : String) :
    ctx.parse kind source = .ok (Text.fill (table kind).parse source) := by
  rw [Context.parse, Registry.parse, h kind]
  rfl

theorem format (kind : Kind) (value : String) :
    ctx.format kind value = .ok ((table kind).formatted value) := by
  rw [Context.format, Registry.format, h kind]
  rfl

theorem delimiter (container : Container) :
    ctx.delimiter container = .ok (table (.container container)).delimiter := by
  rw [Context.delimiter, Registry.delimiter, h (.container container)]
  rfl

end Context.Bound

end StructuredCall
