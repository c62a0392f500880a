import Mathlib.Order.Defs.LinearOrder
import Mathlib.Data.String.Basic
import StructuredCall.Proofs.Json.Token

/-!
# Reading what is written

The compact text of a value denotes that value (`ofText?_text`), as long as its numbers are
integers of one word, the members of its objects are in the order of their keys, and not too many
arrays and objects are inside each other.

The induction is over the value. A part of a text is told from what follows by `Closed`, and a part
of a value is built on top of whatever is open (`ReadAs`).
-/

namespace StructuredCall

/-! ## Texts with separators -/

theorem Text.toList_intercalate_cons (sep part : String) (parts : List String) :
    (sep.intercalate (part :: parts)).toList =
      part.toList ++ parts.flatMap fun part => sep.toList ++ part.toList := by
  induction parts generalizing part with
  | nil => simp
  | cons next parts ih =>
    rw [String.intercalate_cons_cons, String.toList_append, String.toList_append, ih]
    simp

namespace Json

theorem itemTexts_eq (items : List Json) : itemTexts items = items.map text := by
  induction items with
  | nil => rfl
  | cons item items ih => rw [itemTexts, ih, List.map_cons]

/-- A member of an object as it is written. -/
def memberText (member : String × Json) : String :=
  stringText member.1 ++ ":" ++ member.2.text

theorem memberTexts_eq (members : List (String × Json)) :
    memberTexts members = members.map memberText := by
  induction members with
  | nil => rfl
  | cons member members ih => rw [memberTexts, ih, List.map_cons, memberText]

/-! ## Order of members -/

theorem insert_last {key : String} {value : Json} {members : List (String × Json)}
    (h : ∀ member ∈ members, member.1 < key) :
    insert key value members = members ++ [(key, value)] := by
  induction members with
  | nil => rfl
  | cons member members ih =>
    obtain ⟨k, v⟩ := member
    obtain ⟨hk, hmembers⟩ := List.forall_mem_cons.1 h
    rw [insert, if_neg (lt_asymm hk), if_neg (ne_of_gt hk), ih hmembers, List.cons_append]

theorem ofMembers_of_ordered {members : List (String × Json)}
    (h : members.Pairwise fun m m' => m.1 < m'.1) : ofMembers members = .object members := by
  -- the fold moves members from the front of the list to the end of `before`
  have hfold : ∀ before, (before ++ members).Pairwise (fun m m' => m.1 < m'.1) →
      members.foldl (fun object m => insert m.1 m.2 object) before = before ++ members := by
    clear h
    induction members with
    | nil => simp
    | cons member members ih =>
      intro before hbefore
      have hlast : ∀ m ∈ before, m.1 < member.1 := fun m hm =>
        (List.pairwise_append.1 hbefore).2.2 m hm member List.mem_cons_self
      rw [List.foldl_cons, insert_last hlast, ih, List.append_assoc]
      · rfl
      · simpa using hbefore
  rw [ofMembers, hfold [] h, List.nil_append]

/-! ## Values that are read back -/

/-- Values that their text determines, with at most `depth` arrays and objects inside each other. -/
inductive Exact : Nat → Json → Prop
  | null (depth : Nat) : Exact depth .null
  | bool (depth : Nat) (b : Bool) : Exact depth (.bool b)
  | int (depth : Nat) {n : Int} (word : IsWord n) : Exact depth (.number (.int n))
  | string (depth : Nat) (s : String) : Exact depth (.string s)
  | array {depth : Nat} {items : List Json} (exact : ∀ item ∈ items, Exact depth item) :
    Exact (depth + 1) (.array items)
  | object {depth : Nat} {members : List (String × Json)}
    (ordered : members.Pairwise fun m m' => m.1 < m'.1)
    (exact : ∀ member ∈ members, Exact depth member.2) : Exact (depth + 1) (.object members)

/-- The text is cut into the tokens, whatever is behind it; they are put together to the tree, on
top of whatever is open; and the tree has the value. -/
structure ReadAs (depth : Nat) (value : Json) (tokens : List Token) (tree : Tree) : Prop where
  cut : ∀ rest, Closed rest →
    tokens? (value.text.toList ++ rest) = (tokens? rest).map (tokens ++ ·)
  built : ∀ rest stack, build? (tokens ++ rest) stack .value = build? rest stack (.after tree)
  builtFirst : ∀ rest stack,
    build? (tokens ++ rest) stack .firstItem = build? rest stack (.after tree)
  value : tree.value? depth = some value

theorem readAs_atom {depth : Nat} {value : Json}
    (h : ∀ rest, Closed rest → tokens? (value.text.toList ++ rest) =
      (tokens? rest).map (.atom (some value) :: ·)) :
    ReadAs depth value [.atom (some value)] (.leaf (some value)) where
  cut := h
  built _ _ := rfl
  builtFirst _ _ := rfl
  value := by rw [Tree.value?]

/-! ## Items -/

theorem closed_items {rest : List Char} (h : Closed rest) (items : List Json) :
    Closed ((items.flatMap fun item => ',' :: item.text.toList) ++ rest) := by
  cases items with
  | nil => exact h
  | cons item items => exact closed_cons (.inl rfl) _

/-- Items behind the first one, each after a comma. -/
theorem exists_readItems {depth : Nat} {items : List Json}
    (h : ∀ item ∈ items, ∃ tokens tree, ReadAs depth item tokens tree) :
    ∃ tokens trees,
      (∀ rest, Closed rest →
        tokens? ((items.flatMap fun item => ',' :: item.text.toList) ++ rest) =
          (tokens? rest).map (tokens ++ ·)) ∧
      (∀ rest below done tree,
        build? (tokens ++ .closeArray :: rest) (.array done :: below) (.after tree) =
          build? rest below (.after (.array ((tree :: done).reverse ++ trees)))) ∧
      Tree.values? depth trees = some items := by
  induction items with
  | nil =>
    refine ⟨[], [], fun rest _ => ?_, fun rest below done tree => ?_, rfl⟩
    · simp
    · rw [List.nil_append, build?, List.append_nil]
  | cons item items ih =>
    obtain ⟨⟨tokens, tree, hitem⟩, hitems⟩ := List.forall_mem_cons.1 h
    obtain ⟨more, trees, hcut, hbuilt, hvalues⟩ := ih hitems
    refine ⟨.comma :: tokens ++ more, tree :: trees, fun rest hrest => ?_,
      fun rest below done first => ?_, ?_⟩
    · -- an item is cut off where the next comma or the bracket closes it
      rw [List.flatMap_cons, List.cons_append, List.cons_append, List.append_assoc,
        tokens?_of_punctuation rfl, hitem.cut _ (closed_items hrest items), hcut rest hrest]
      simp [Function.comp_def]
    · rw [List.append_assoc, List.cons_append, build?, hitem.built, hbuilt]
      simp
    · rw [Tree.values?, hitem.value, hvalues]
      rfl

theorem exists_readArray {depth : Nat} {items : List Json}
    (h : ∀ item ∈ items, ∃ tokens tree, ReadAs depth item tokens tree) :
    ∃ tokens tree, ReadAs (depth + 1) (.array items) tokens tree := by
  cases items with
  | nil =>
    refine ⟨[.openArray, .closeArray], .array [],
      ⟨fun rest _ => ?_, fun _ _ => rfl, fun _ _ => rfl, rfl⟩⟩
    show tokens? ('[' :: ']' :: rest) = _
    rw [tokens?_of_punctuation rfl, tokens?_of_punctuation rfl]
    simp [Function.comp_def]
  | cons item items =>
    obtain ⟨⟨tokens, tree, hitem⟩, hitems⟩ := List.forall_mem_cons.1 h
    obtain ⟨more, trees, hcut, hbuilt, hvalues⟩ := exists_readItems hitems
    -- the array is open while its items are built, whatever is open around it
    have hbuild : ∀ rest stack, build? ((tokens ++ more ++ [.closeArray]) ++ rest)
        (.array [] :: stack) .firstItem = build? rest stack (.after (.array (tree :: trees))) := by
      intro rest stack
      rw [List.append_assoc, List.append_assoc, hitem.builtFirst, List.singleton_append, hbuilt]
      rfl
    refine ⟨.openArray :: (tokens ++ more ++ [.closeArray]), .array (tree :: trees),
      ⟨fun rest _ => ?_, fun rest stack => ?_, fun rest stack => ?_, ?_⟩⟩
    · have htext : (text (.array (item :: items))).toList ++ rest =
          '[' :: (item.text.toList ++ ((items.flatMap fun item => ',' :: item.text.toList) ++
            ']' :: rest)) := by
        rw [text, itemTexts_eq, String.toList_append, String.toList_append, List.map_cons,
          Text.toList_intercalate_cons]
        simp [List.flatMap_map]
      have hclosed : Closed (']' :: rest) := closed_cons (.inr (.inl rfl)) _
      rw [htext, tokens?_of_punctuation rfl, hitem.cut _ (closed_items hclosed items),
        hcut _ hclosed, tokens?_of_punctuation rfl]
      simp [Function.comp_def]
    · rw [List.cons_append, build?, hbuild]
    · rw [List.cons_append, build?, hbuild]
    · simp [Tree.value?, Tree.values?, hitem.value, hvalues]

/-! ## Members -/

theorem closed_members {rest : List Char} (h : Closed rest) (members : List (String × Json)) :
    Closed ((members.flatMap fun member => ',' :: (memberText member).toList) ++ rest) := by
  cases members with
  | nil => exact h
  | cons member members => exact closed_cons (.inl rfl) _

theorem cut_member {depth : Nat} {member : String × Json} {tokens : List Token} {tree : Tree}
    (h : ReadAs depth member.2 tokens tree) {rest : List Char} (hrest : Closed rest) :
    tokens? ((memberText member).toList ++ rest) =
      (tokens? rest).map (.string (some member.1) :: .colon :: tokens ++ ·) := by
  have htext : (memberText member).toList ++ rest =
      (stringText member.1).toList ++ ':' :: (member.2.text.toList ++ rest) := by
    simp [memberText]
  rw [htext, tokens?_stringText, tokens?_of_punctuation rfl, h.cut rest hrest]
  simp [Function.comp_def]

/-- Members behind the first one, each after a comma. -/
theorem exists_readMembers {depth : Nat} {members : List (String × Json)}
    (h : ∀ member ∈ members, ∃ tokens tree, ReadAs depth member.2 tokens tree) :
    ∃ tokens trees,
      (∀ rest, Closed rest →
        tokens? ((members.flatMap fun member => ',' :: (memberText member).toList) ++ rest) =
          (tokens? rest).map (tokens ++ ·)) ∧
      (∀ rest below done key tree,
        build? (tokens ++ .closeObject :: rest) (.member done key :: below) (.after tree) =
          build? rest below (.after (.object (((key, tree) :: done).reverse ++ trees)))) ∧
      Tree.memberValues? depth trees = some members := by
  induction members with
  | nil =>
    refine ⟨[], [], fun rest _ => ?_, fun rest below done key tree => ?_, rfl⟩
    · simp
    · rw [List.nil_append, build?, List.append_nil]
  | cons member members ih =>
    obtain ⟨⟨tokens, tree, hmember⟩, hmembers⟩ := List.forall_mem_cons.1 h
    obtain ⟨more, trees, hcut, hbuilt, hvalues⟩ := ih hmembers
    refine ⟨.comma :: .string (some member.1) :: .colon :: tokens ++ more,
      (some member.1, tree) :: trees, fun rest hrest => ?_, fun rest below done key first => ?_, ?_⟩
    · rw [List.flatMap_cons, List.cons_append, List.cons_append, List.append_assoc,
        tokens?_of_punctuation rfl, cut_member hmember (closed_members hrest members),
        hcut rest hrest]
      simp [Function.comp_def]
    · simp only [List.cons_append, List.append_assoc]
      rw [build?, build?, hmember.built, hbuilt]
      simp
    · simp [Tree.memberValues?, hmember.value, hvalues]

theorem exists_readObject {depth : Nat} {members : List (String × Json)}
    (ordered : members.Pairwise fun m m' => m.1 < m'.1)
    (h : ∀ member ∈ members, ∃ tokens tree, ReadAs depth member.2 tokens tree) :
    ∃ tokens tree, ReadAs (depth + 1) (.object members) tokens tree := by
  cases members with
  | nil =>
    refine ⟨[.openObject, .closeObject], .object [], ⟨fun rest _ => ?_, fun _ _ => rfl,
      fun _ _ => rfl, rfl⟩⟩
    show tokens? ('\x7b' :: '\x7d' :: rest) = _
    rw [tokens?_of_punctuation rfl, tokens?_of_punctuation rfl]
    simp [Function.comp_def]
  | cons member members =>
    obtain ⟨⟨tokens, tree, hmember⟩, hmembers⟩ := List.forall_mem_cons.1 h
    obtain ⟨more, trees, hcut, hbuilt, hvalues⟩ := exists_readMembers hmembers
    have hbuild : ∀ rest stack, build? ((.string (some member.1) :: .colon :: tokens ++ more ++
        [.closeObject]) ++ rest) stack .firstKey =
          build? rest stack (.after (.object ((some member.1, tree) :: trees))) := by
      intro rest stack
      simp only [List.cons_append, List.append_assoc, List.nil_append]
      rw [build?, hmember.built, hbuilt]
      rfl
    refine ⟨.openObject :: (.string (some member.1) :: .colon :: tokens ++ more ++ [.closeObject]),
      .object ((some member.1, tree) :: trees),
      ⟨fun rest _ => ?_, fun rest stack => ?_, fun rest stack => ?_, ?_⟩⟩
    · have htext : (text (.object (member :: members))).toList ++ rest =
          '\x7b' :: ((memberText member).toList ++
            ((members.flatMap fun member => ',' :: (memberText member).toList) ++
              '\x7d' :: rest)) := by
        rw [text, memberTexts_eq, String.toList_append, String.toList_append, List.map_cons,
          Text.toList_intercalate_cons]
        simp [List.flatMap_map]
      have hclosed : Closed ('\x7d' :: rest) := closed_cons (.inr (.inr rfl)) _
      rw [htext, tokens?_of_punctuation rfl, cut_member hmember (closed_members hclosed members),
        hcut _ hclosed, tokens?_of_punctuation rfl]
      simp [Function.comp_def]
    · rw [List.cons_append, build?, hbuild]
    · rw [List.cons_append, build?, hbuild]
    · simp [Tree.value?, Tree.memberValues?, hmember.value, hvalues, ofMembers_of_ordered ordered]

/-! ## All values -/

theorem Exact.exists_readAs {depth : Nat} {value : Json} (h : Exact depth value) :
    ∃ tokens tree, ReadAs depth value tokens tree := by
  induction h with
  | null depth => exact ⟨_, _, readAs_atom fun rest _ => tokens?_null rest⟩
  | bool depth b => exact ⟨_, _, readAs_atom fun rest _ => tokens?_bool b rest⟩
  | int depth word =>
    refine ⟨_, _, readAs_atom fun rest hrest => ?_⟩
    rw [text, Number.text, Text.intText, String.toList_ofList]
    exact tokens?_int word hrest
  | string depth s =>
    refine ⟨[.string (some s)], .leaf (some (.string s)), fun rest _ => tokens?_stringText s rest,
      fun rest stack => ?_, fun rest stack => ?_, by rw [Tree.value?]⟩
    · rw [List.singleton_append, build?]
      all_goals simp
    · rw [List.singleton_append, build?]
      all_goals simp
  | array exact ih => exact exists_readArray ih
  | object ordered exact ih => exact exists_readObject ordered ih

/-- **What is written is read back.** -/
theorem ofText?_text {value : Json} (h : Exact maxDepth value) :
    ofText? value.text = some value := by
  obtain ⟨tokens, tree, hread⟩ := h.exists_readAs
  have hcut : tokens? value.text.toList = some tokens := by
    simpa [tokens?, tokensWithin?] using hread.cut [] closed_nil
  have hbuilt : build? tokens [] .value = some tree := by
    simpa [build?] using hread.built [] []
  simp [ofText?, Tree.ofText?, hcut, hbuilt, hread.value]

/-! ## The end of a text -/

/-- The token that a tree ends with. -/
inductive Tree.EndsWith : Tree → Token → Prop
  | atom (value : Option Json) : EndsWith (.leaf value) (.atom value)
  | string (value : Option String) : EndsWith (.leaf (value.map .string)) (.string value)
  | array (items : List Tree) : EndsWith (.array items) .closeArray
  | object (members : List (Option String × Tree)) : EndsWith (.object members) .closeObject

theorem endsWith_of_after {token : Token} {rest : List Token} {below : List Frame}
    {built tree : Tree} {last : Token} (hends : built.EndsWith token)
    (h : build? rest below (.after built) = some tree)
    (hlast : (token :: rest).getLast? = some last)
    (ih : build? rest below (.after built) = some tree → rest.getLast? = some last →
      tree.EndsWith last) : tree.EndsWith last := by
  cases rest with
  | nil =>
    cases below with
    | nil =>
      cases h
      obtain rfl : token = last := by simpa using hlast
      exact hends
    | cons frame below => cases h
  | cons next rest => exact ih h (by simpa using hlast)

/-- As long as a value is wanted, more tokens follow. -/
theorem endsWith_of_wanted {token : Token} {rest : List Token} {stack : List Frame}
    {expectation : Expectation} {tree : Tree} {last : Token}
    (hwanted : ∀ built, expectation ≠ .after built)
    (h : build? rest stack expectation = some tree)
    (hlast : (token :: rest).getLast? = some last)
    (ih : build? rest stack expectation = some tree → rest.getLast? = some last →
      tree.EndsWith last) : tree.EndsWith last := by
  cases rest with
  | nil =>
    cases expectation with
    | after built => exact absurd rfl (hwanted built)
    | _ => cases stack <;> cases h
  | cons next rest => exact ih h (by simpa using hlast)

/-- The last token of a text is the one that its tree ends with. -/
theorem endsWith_of_build? {tokens : List Token} {stack : List Frame} {expectation : Expectation}
    {tree : Tree} (h : build? tokens stack expectation = some tree) {last : Token}
    (hlast : tokens.getLast? = some last) : tree.EndsWith last := by
  fun_induction build? tokens stack expectation
  case case1 | case2 => cases hlast
  case case11 | case16 | case21 | case22 => cases h
  -- a token that ends a value: an array, an object, an atom or a string
  case case3 | case8 =>
    rename_i ih
    exact endsWith_of_after (.array _) h hlast ih
  case case4 | case10 =>
    rename_i ih
    exact endsWith_of_after (.object _) h hlast ih
  case case12 | case17 =>
    rename_i ih
    exact endsWith_of_after (.atom _) h hlast ih
  case case13 | case18 =>
    rename_i ih
    exact endsWith_of_after (.string _) h hlast ih
  -- a token behind which a value, an item or a key is wanted
  case case5 | case6 =>
    rename_i ih
    exact @endsWith_of_wanted .colon _ _ _ _ _ (by simp) h (by simpa using hlast) ih
  case case7 | case9 | case14 | case15 | case19 | case20 =>
    rename_i ih
    exact endsWith_of_wanted (by simp) h hlast ih

theorem isSpace_of_not_isBlank {c : Char} (h : Text.isBlank c = false) : isSpace c = false := by
  have hblank : [' ', '\t', '\n', '\r'].all Text.isBlank = true := by decide
  rw [← Bool.not_eq_true] at h ⊢
  intro hspace
  exact h (List.all_eq_true.1 hblank c (by simpa [isSpace, or_assoc] using hspace))

/-- What a text denotes is told by the characters at its end. -/
theorem end_of_ofText? {s : String} {last : Char} (hlast : s.toList.getLast? = some last)
    (hblank : Text.isBlank last = false) {value : Json} (h : ofText? s = some value) :
    (∀ items, value = .array items → last = ']') ∧
    (∀ members, value = .object members → last = '\x7d') ∧
    (∀ text, value = .string text → 2 ≤ s.length) := by
  obtain ⟨tree, htree, hvalue⟩ := Option.bind_eq_some_iff.1 h
  obtain ⟨tokens, htokens, hbuild⟩ := Option.bind_eq_some_iff.1 htree
  obtain ⟨front, token, before, taken, rfl, hspells, hs⟩ :=
    lastToken_of_tokens? hlast (isSpace_of_not_isBlank hblank) htokens
  have hends : tree.EndsWith token := endsWith_of_build? hbuild (by simp)
  rw [hs] at hlast
  cases hends with
  | atom v =>
    rw [Tree.value?] at hvalue
    have hatom := hspells.atom value (by rw [hvalue])
    refine ⟨?_, ?_, ?_⟩ <;> rintro _ rfl <;> cases hatom
  | string v =>
    rw [Tree.value?] at hvalue
    obtain ⟨text, -, rfl⟩ := Option.map_eq_some_iff.1 hvalue
    refine ⟨by simp, by simp, fun _ _ => ?_⟩
    obtain ⟨inner, rfl⟩ := hspells.string v rfl
    rw [← String.length_toList, hs]
    simp
    omega
  | array items =>
    rw [maxDepth, Tree.value?] at hvalue
    obtain ⟨values, -, rfl⟩ := Option.map_eq_some_iff.1 hvalue
    refine ⟨fun _ _ => ?_, by simp, by simp⟩
    simpa [hspells.closeArray rfl, eq_comm] using hlast
  | object members =>
    rw [maxDepth, Tree.value?] at hvalue
    obtain ⟨values, -, rfl⟩ := Option.map_eq_some_iff.1 hvalue
    refine ⟨by simp [ofMembers], fun _ _ => ?_, by simp [ofMembers]⟩
    simpa [hspells.closeObject rfl, eq_comm] using hlast

end Json

end StructuredCall
