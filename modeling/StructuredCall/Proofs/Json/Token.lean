import Mathlib.Tactic.SplitIfs
import StructuredCall.Json.Parser
import StructuredCall.Proofs.Literal.Number

/-!
# Cutting JSON text

A token takes a part of the text and leaves the rest, so the number of steps that are allowed does
not matter (`tokensWithin?_congr`). The tokens that are written for integers and strings are read
back (`tokens?_int`, `tokens?_stringText`), and the last character of a text belongs to its last
token (`lastToken_of_tokens?`).
-/

namespace StructuredCall.Json

/-! ## What a token takes -/

theorem takeDigits?_eq_some {cs digits after : List Char}
    (h : takeDigits? cs = some (digits, after)) : digits ≠ [] ∧ cs = digits ++ after := by
  unfold takeDigits? at h
  simp only at h
  split at h
  · cases h
  · next hne =>
    cases h
    exact ⟨by simpa using hne, (List.takeWhile_append_dropWhile).symm⟩

theorem takeWhole?_eq_some {cs digits after : List Char}
    (h : takeWhole? cs = some (digits, after)) : digits ≠ [] ∧ cs = digits ++ after := by
  unfold takeWhole? at h
  split at h
  · cases h
    exact ⟨by simp, rfl⟩
  · exact takeDigits?_eq_some h

theorem suffix_takeFraction? {cs after : List Char} {fraction : Option (List Char)}
    (h : takeFraction? cs = some (fraction, after)) : after <:+ cs := by
  unfold takeFraction? at h
  split at h
  · next rest =>
    obtain ⟨⟨digits, rest'⟩, hdigits, hpair⟩ := Option.map_eq_some_iff.1 h
    cases hpair
    exact ⟨'.' :: digits, by rw [(takeDigits?_eq_some hdigits).2]; rfl⟩
  · cases h
    exact List.suffix_refl _

theorem suffix_takeExponentDigits? {cs after : List Char} {negative : Bool} {exponent : Option Int}
    (h : takeExponentDigits? negative cs = some (exponent, after)) : after <:+ cs := by
  obtain ⟨⟨digits, rest⟩, hdigits, hpair⟩ := Option.map_eq_some_iff.1 h
  cases hpair
  exact ⟨digits, (takeDigits?_eq_some hdigits).2.symm⟩

theorem suffix_takeExponent? {cs after : List Char} {exponent : Option Int}
    (h : takeExponent? cs = some (exponent, after)) : after <:+ cs := by
  unfold takeExponent? at h
  split at h
  · cases h
    exact List.suffix_refl _
  · next mark rest =>
    split at h
    · split at h
      · exact (suffix_takeExponentDigits? h).trans ⟨[mark, '+'], rfl⟩
      · exact (suffix_takeExponentDigits? h).trans ⟨[mark, '-'], rfl⟩
      · exact (suffix_takeExponentDigits? h).trans (List.suffix_cons _ _)
    · cases h
      exact List.suffix_refl _

theorem suffix_takeUnsigned? {cs after : List Char} {negative : Bool} {t : NumberText}
    (h : takeUnsigned? negative cs = some (t, after)) :
    after <:+ cs ∧ after.length < cs.length := by
  unfold takeUnsigned? at h
  obtain ⟨⟨whole, afterWhole⟩, hwhole, h⟩ := Option.bind_eq_some_iff.1 h
  obtain ⟨⟨fraction, afterFraction⟩, hfraction, h⟩ := Option.bind_eq_some_iff.1 h
  obtain ⟨⟨exponent, rest⟩, hexponent, h⟩ := Option.bind_eq_some_iff.1 h
  cases h
  obtain ⟨hne, rfl⟩ := takeWhole?_eq_some hwhole
  have hsuffix := (suffix_takeExponent? hexponent).trans (suffix_takeFraction? hfraction)
  refine ⟨hsuffix.trans (List.suffix_append _ _), ?_⟩
  have hle := hsuffix.length_le
  have hpos := List.length_pos_iff.2 hne
  rw [List.length_append]
  omega

theorem suffix_takeNumber? {cs after : List Char} {t : NumberText}
    (h : takeNumber? cs = some (t, after)) : after <:+ cs ∧ after.length < cs.length := by
  unfold takeNumber? at h
  split at h
  · next rest =>
    obtain ⟨hsuffix, hlt⟩ := suffix_takeUnsigned? h
    exact ⟨hsuffix.trans (List.suffix_cons _ _), Nat.lt_succ_of_lt hlt⟩
  · exact suffix_takeUnsigned? h

theorem takeString_eq_some {cs after : List Char} {pieces : List Piece}
    (h : takeString cs = some (pieces, after)) : ∃ inner, cs = inner ++ '"' :: after := by
  induction cs using takeString.induct generalizing pieces after with
  | case1 => cases h
  | case2 rest =>
    cases h
    exact ⟨[], rfl⟩
  | case3 a b c d rest ih =>
    rw [takeString] at h
    obtain ⟨code, -, h⟩ := Option.bind_eq_some_iff.1 h
    obtain ⟨⟨inner, after'⟩, hrest, h⟩ := Option.bind_eq_some_iff.1 h
    cases h
    obtain ⟨inner, rfl⟩ := ih hrest
    exact ⟨'\\' :: 'u' :: a :: b :: c :: d :: inner, rfl⟩
  | case4 e rest hu ih =>
    rw [takeString] at h
    · obtain ⟨c, -, h⟩ := Option.bind_eq_some_iff.1 h
      obtain ⟨⟨inner, after'⟩, hrest, h⟩ := Option.bind_eq_some_iff.1 h
      cases h
      obtain ⟨inner, rfl⟩ := ih hrest
      exact ⟨'\\' :: e :: inner, rfl⟩
    · exact hu
  | case5 c rest hquote hu hslash hlow =>
    rw [takeString, if_pos hlow] at h
    · cases h
    all_goals assumption
  | case6 c rest hquote hu hslash hlow ih =>
    rw [takeString, if_neg hlow] at h
    · obtain ⟨⟨inner, after'⟩, hrest, h⟩ := Option.bind_eq_some_iff.1 h
      cases h
      obtain ⟨inner, rfl⟩ := ih hrest
      exact ⟨c :: inner, rfl⟩
    all_goals assumption

/-- Values that are one token without quotes. -/
def IsAtom : Json → Prop
  | .null | .bool _ | .number _ => True
  | .string _ | .array _ | .object _ => False

/-- What a token tells about the characters that it is read from. -/
structure Token.Spells (token : Token) (taken : List Char) : Prop where
  nonempty : taken ≠ []
  atom : ∀ value, token = .atom (some value) → value.IsAtom
  closeArray : token = .closeArray → taken = [']']
  closeObject : token = .closeObject → taken = ['\x7d']
  string : ∀ value, token = .string value → ∃ inner, taken = '"' :: inner ++ ['"']

theorem Token.Spells.of_atom {value : Option Json} (hatom : ∀ v, value = some v → v.IsAtom)
    {taken : List Char} (h : taken ≠ []) : (Token.atom value).Spells taken :=
  ⟨h, by simpa using hatom, by simp, by simp, by simp⟩

theorem spells_of_punctuation? {c : Char} {token : Token} (h : punctuation? c = some token) :
    token.Spells [c] := by
  unfold punctuation? at h
  split_ifs at h <;> cases h <;> refine ⟨by simp, ?_, ?_, ?_, ?_⟩ <;> simp_all

theorem takeToken?_eq_some {cs after : List Char} {token : Token}
    (h : takeToken? cs = some (token, after)) :
    ∃ taken, token.Spells taken ∧ cs = taken ++ after := by
  unfold takeToken? at h
  split at h
  · cases h
    exact ⟨['n', 'u', 'l', 'l'], .of_atom (by simp [IsAtom]) (by simp), rfl⟩
  · cases h
    exact ⟨['t', 'r', 'u', 'e'], .of_atom (by simp [IsAtom]) (by simp), rfl⟩
  · cases h
    exact ⟨['f', 'a', 'l', 's', 'e'], .of_atom (by simp [IsAtom]) (by simp), rfl⟩
  · obtain ⟨⟨pieces, rest⟩, hstring, h⟩ := Option.bind_eq_some_iff.1 h
    cases h
    obtain ⟨inner, rfl⟩ := takeString_eq_some hstring
    exact ⟨'"' :: inner ++ ['"'], ⟨by simp, by simp, by simp, by simp, fun _ _ => ⟨inner, rfl⟩⟩,
      by simp⟩
  · cases h
  · next c rest _ _ _ _ =>
    split at h
    · next hpunctuation =>
      cases h
      exact ⟨[c], spells_of_punctuation? hpunctuation, rfl⟩
    · -- what starts in no other way is a number
      obtain ⟨⟨t, rest'⟩, hnumber, h⟩ := Option.bind_eq_some_iff.1 h
      cases h
      obtain ⟨⟨taken, htaken⟩, hlt⟩ := suffix_takeNumber? hnumber
      refine ⟨taken, .of_atom ?_ ?_, htaken.symm⟩
      · intro v hv
        obtain ⟨n, -, rfl⟩ := Option.map_eq_some_iff.1 hv
        trivial
      · rintro rfl
        simp [← htaken] at hlt

theorem length_lt_of_takeToken? {cs after : List Char} {token : Token}
    (h : takeToken? cs = some (token, after)) : after.length < cs.length := by
  obtain ⟨taken, hspells, rfl⟩ := takeToken?_eq_some h
  have hpos := List.length_pos_iff.2 hspells.nonempty
  rw [List.length_append]
  omega

/-! ## Steps -/

/-- More steps than characters are not needed. -/
theorem tokensWithin?_congr {fuel fuel' : Nat} {cs : List Char} (h : cs.length ≤ fuel)
    (h' : cs.length ≤ fuel') : tokensWithin? fuel cs = tokensWithin? fuel' cs := by
  induction fuel generalizing fuel' cs with
  | zero =>
    obtain rfl := List.length_eq_zero_iff.1 (Nat.le_zero.1 h)
    cases fuel' <;> rfl
  | succ fuel ih =>
    cases cs with
    | nil => cases fuel' <;> rfl
    | cons c rest =>
      obtain ⟨fuel', rfl⟩ : ∃ n, fuel' = n + 1 := ⟨fuel' - 1, by simp at h'; omega⟩
      simp only [List.length_cons, Nat.add_le_add_iff_right] at h h'
      simp only [tokensWithin?]
      split
      · exact ih h h'
      · cases htoken : takeToken? (c :: rest) with
        | none => rfl
        | some pair =>
          obtain ⟨token, after⟩ := pair
          have hlength := length_lt_of_takeToken? htoken
          rw [List.length_cons] at hlength
          have hrest : tokensWithin? fuel after = tokensWithin? fuel' after :=
            ih (by omega) (by omega)
          simp [hrest]

theorem tokens?_cons (c : Char) (rest : List Char) :
    tokens? (c :: rest) =
      if isSpace c then tokens? rest
      else (takeToken? (c :: rest)).bind fun (token, after) =>
        (tokens? after).map (token :: ·) := by
  unfold tokens?
  rw [List.length_cons, tokensWithin?]
  split
  · rfl
  · cases htoken : takeToken? (c :: rest) with
    | none => rfl
    | some pair =>
      obtain ⟨token, after⟩ := pair
      have hrest : tokensWithin? rest.length after = tokensWithin? after.length after :=
        tokensWithin?_congr (Nat.le_of_lt_succ (length_lt_of_takeToken? htoken)) (Nat.le_refl _)
      show (tokensWithin? rest.length after).bind _ =
        (tokensWithin? after.length after).map (token :: ·)
      rw [hrest, Option.map_eq_bind]
      rfl

/-! ## Tokens that are written -/

theorem tokens?_of_token {c : Char} (hc : isSpace c = false) {rest after : List Char}
    {token : Token} (h : takeToken? (c :: rest) = some (token, after)) :
    tokens? (c :: rest) = (tokens? after).map (token :: ·) := by
  rw [tokens?_cons, if_neg (by simp [hc]), h]
  rfl

/-- Words and strings are told by their first character. -/
theorem takeToken?_of_first {c : Char} (hc : c ≠ 'n' ∧ c ≠ 't' ∧ c ≠ 'f' ∧ c ≠ '"')
    (rest : List Char) : takeToken? (c :: rest) =
      match punctuation? c with
      | some token => some (token, rest)
      | none => (takeNumber? (c :: rest)).bind fun (t, after) =>
        some (.atom (t.number?.map .number), after) := by
  obtain ⟨hn, ht, hf, hquote⟩ := hc
  unfold takeToken?
  split
  case h_6 c rest _ _ _ _ heq =>
    cases heq
    rfl
  all_goals simp_all

theorem tokens?_of_punctuation {c : Char} {token : Token}
    (h : punctuation? c = some token) (rest : List Char) :
    tokens? (c :: rest) = (tokens? rest).map (token :: ·) := by
  have hc : isSpace c = false ∧ c ≠ 'n' ∧ c ≠ 't' ∧ c ≠ 'f' ∧ c ≠ '"' := by
    unfold punctuation? at h
    split_ifs at h <;> subst c <;> decide
  refine tokens?_of_token hc.1 ?_
  rw [takeToken?_of_first hc.2, h]

/-- What stands behind a value: nothing, or what closes or goes on with what it is in. -/
def Closed (rest : List Char) : Prop :=
  ∀ c ∈ rest.head?, c = ',' ∨ c = ']' ∨ c = '\x7d'

theorem closed_nil : Closed [] := by
  simp [Closed]

theorem closed_cons {c : Char} (h : c = ',' ∨ c = ']' ∨ c = '\x7d') (rest : List Char) :
    Closed (c :: rest) := by
  simpa [Closed] using h

theorem Closed.stops {rest : List Char} (h : Closed rest) : Text.Stops rest := by
  cases rest with
  | nil => rfl
  | cons c rest =>
    rcases h c rfl with rfl | rfl | rfl <;> rfl

/-! ### Numbers -/

theorem natDigits_ne_zero {n : Nat} (hn : n ≠ 0) (rest : List Char) :
    Text.natDigits n ≠ '0' :: rest := by
  induction n using Text.natDigits.induct generalizing rest with
  | case1 n small =>
    rw [Text.natDigits, dif_pos small]
    intro h
    have hzero := congrArg Text.digitValue (List.cons.inj h).1
    rw [Text.digitValue_digitChar] at hzero
    exact hn (by rw [Nat.mod_eq_of_lt small] at hzero; exact hzero)
  | case2 n large ih =>
    rw [Text.natDigits, dif_neg large]
    intro h
    cases hd : Text.natDigits (n / 10) with
    | nil => exact Text.natDigits_ne_nil _ hd
    | cons c cs =>
      rw [hd, List.cons_append] at h
      refine ih (by omega) cs ?_
      rw [hd, (List.cons.inj h).1]

theorem takeDigits?_natDigits (n : Nat) {rest : List Char} (h : Text.Stops rest) :
    takeDigits? (Text.natDigits n ++ rest) = some (Text.natDigits n, rest) := by
  have hdrop : (Text.natDigits n ++ rest).dropWhile Text.isDigit = rest := by
    have happend := List.takeWhile_append_dropWhile (p := Text.isDigit)
      (l := Text.natDigits n ++ rest)
    rw [Text.takeWhile_natDigits n h] at happend
    exact List.append_cancel_left happend
  simp [takeDigits?, Text.takeWhile_natDigits n h, hdrop, Text.natDigits_ne_nil]

theorem takeWhole?_natDigits (n : Nat) {rest : List Char} (h : Text.Stops rest) :
    takeWhole? (Text.natDigits n ++ rest) = some (Text.natDigits n, rest) := by
  by_cases hn : n = 0
  · have hzero : Text.natDigits 0 = ['0'] := by
      rw [Text.natDigits, dif_pos (by decide)]
      rfl
    rw [hn, hzero]
    rfl
  · unfold takeWhole?
    split
    · next rest' heq =>
      cases hd : Text.natDigits n with
      | nil => exact absurd hd (Text.natDigits_ne_nil n)
      | cons c cs =>
        rw [hd, List.cons_append] at heq
        exact absurd (by rw [hd, (List.cons.inj heq).1]) (natDigits_ne_zero hn cs)
    · exact takeDigits?_natDigits n h

theorem takeUnsigned?_natDigits (negative : Bool) (n : Nat) {rest : List Char} (h : Closed rest) :
    takeUnsigned? negative (Text.natDigits n ++ rest) =
      some (⟨negative, Text.natDigits n, none, none⟩, rest) := by
  have hfraction : takeFraction? rest = some (none, rest) := by
    unfold takeFraction?
    split
    · exact absurd (h _ rfl) (by decide)
    · rfl
  have hexponent : takeExponent? rest = some (none, rest) := by
    unfold takeExponent?
    split
    · rfl
    · next mark rest =>
      have hmark : ¬(mark = 'e' ∨ mark = 'E') := by
        rcases h mark rfl with rfl | rfl | rfl <;> decide
      rw [if_neg hmark]
  simp [takeUnsigned?, takeWhole?_natDigits n h.stops, hfraction, hexponent]

/-- The integers that are read as such. -/
def IsWord (n : Int) : Prop :=
  -Text.word64Count ≤ 2 * n ∧ n < Text.word64Count

theorem takeNumber?_intDigits {n : Int} (hn : IsWord n) {rest : List Char} (h : Closed rest) :
    ∃ t, takeNumber? (Text.intDigits n ++ rest) = some (t, rest) ∧ t.number? = some (.int n) := by
  obtain ⟨hlow, hhigh⟩ := hn
  unfold Text.intDigits
  split
  · next hneg =>
    refine ⟨_, takeUnsigned?_natDigits true n.natAbs h, ?_⟩
    simp only [NumberText.number?, Text.digitsValue_natDigits, if_true]
    rw [if_pos (by omega)]
    congr
    omega
  · next hpos =>
    refine ⟨⟨false, Text.natDigits n.natAbs, none, none⟩, ?_, ?_⟩
    · unfold takeNumber?
      split
      · next heq => exact absurd heq (Text.natDigits_append_ne_minus _ _ _)
      · exact takeUnsigned?_natDigits false n.natAbs h
    · simp only [NumberText.number?, Text.digitsValue_natDigits]
      rw [if_neg (by simp), if_pos (by omega)]
      congr
      omega

theorem intDigits_first (n : Int) :
    ∃ c cs, Text.intDigits n = c :: cs ∧ (Text.isDigit c = true ∨ c = '-') := by
  unfold Text.intDigits
  split
  · exact ⟨'-', _, rfl, .inr rfl⟩
  · cases hd : Text.natDigits n.natAbs with
    | nil => exact absurd hd (Text.natDigits_ne_nil _)
    | cons c cs =>
      exact ⟨c, cs, rfl, .inl (Text.isDigit_of_mem_natDigits (n := n.natAbs) (by simp [hd]))⟩

/-- A character that starts a number starts nothing else. -/
theorem first_of_number {c : Char} (h : Text.isDigit c = true ∨ c = '-') :
    isSpace c = false ∧ (c ≠ 'n' ∧ c ≠ 't' ∧ c ≠ 'f' ∧ c ≠ '"') ∧ punctuation? c = none := by
  let others := [' ', '\t', '\n', '\r', 'n', 't', 'f', '"', '[', ']', '\x7b', '\x7d', ',', ':']
  have hothers : others.all (fun d => !Text.isDigit d && d != '-') = true := by decide
  have hne : ∀ d ∈ others, c ≠ d := by
    rintro d hd rfl
    have hnone := List.all_eq_true.1 hothers c hd
    simp_all
  simp_all [others, isSpace, punctuation?]

/-- **An integer is read back.** -/
theorem tokens?_int {n : Int} (hn : IsWord n) {rest : List Char} (h : Closed rest) :
    tokens? (Text.intDigits n ++ rest) =
      (tokens? rest).map (.atom (some (.number (.int n))) :: ·) := by
  obtain ⟨t, hread, hvalue⟩ := takeNumber?_intDigits hn h
  obtain ⟨c, cs, hfirst, hc⟩ := intDigits_first n
  obtain ⟨hspace, hother, hnone⟩ := first_of_number hc
  rw [hfirst, List.cons_append] at hread ⊢
  refine tokens?_of_token hspace ?_
  rw [takeToken?_of_first hother, hnone]
  simp [hread, hvalue]

/-! ### Strings -/

theorem takeString_quote (rest : List Char) : takeString ('"' :: rest) = some ([], rest) := by
  rw [takeString]

theorem takeString_escape {e c : Char} (he : escape? e = some c) (rest : List Char) :
    takeString ('\\' :: e :: rest) =
      (takeString rest).map fun (pieces, after) => (.char c :: pieces, after) := by
  have hu : e ≠ 'u' := by
    rintro rfl
    cases he
  rw [takeString]
  · rw [he, Option.map_eq_bind]
    rfl
  · rintro a b c d rest rfl
    exact absurd rfl hu

theorem takeString_plain {c : Char} (hquote : c ≠ '"') (hslash : c ≠ '\\') (hlow : ¬c.toNat < 0x20)
    (rest : List Char) : takeString (c :: rest) =
      (takeString rest).map fun (pieces, after) => (.char c :: pieces, after) := by
  rw [takeString, if_neg hlow]
  · rw [Option.map_eq_bind]
    rfl
  all_goals simp_all

theorem hexCode?_control {n : Nat} (hn : n < 0x20) :
    hexCode? '0' '0' (Nat.digitChar (n / 16)) (Nat.digitChar (n % 16)) = some n := by
  have hall : ∀ n < 0x20,
      hexCode? '0' '0' (Nat.digitChar (n / 16)) (Nat.digitChar (n % 16)) = some n := by
    decide
  exact hall n hn

/-- A character of a string is read as one piece, which denotes it. -/
theorem takeString_stringChar (c : Char) : ∃ piece,
    (∀ rest, takeString (stringChar c ++ rest) =
      (takeString rest).map fun (pieces, after) => (piece :: pieces, after)) ∧
    ∀ pieces, pieceChars? (piece :: pieces) = (pieceChars? pieces).map (c :: ·) := by
  by_cases hlow : c.toNat < 0x20
  · -- a control character is written by its letter or by its code, which is no surrogate
    by_cases hshort : c ∈ ['\x08', '\x0c', '\n', '\r', '\t']
    · refine ⟨.char c, fun rest => ?_, fun _ => rfl⟩
      simp only [List.mem_cons, List.not_mem_nil, or_false] at hshort
      rcases hshort with rfl | rfl | rfl | rfl | rfl <;> exact takeString_escape rfl rest
    · refine ⟨.code c.toNat, fun rest => ?_, fun pieces => ?_⟩
      · have htext : stringChar c = ['\\', 'u', '0', '0', Nat.digitChar (c.toNat / 16),
            Nat.digitChar (c.toNat % 16)] := by
          have hmarks : c ≠ '"' ∧ c ≠ '\\' := by
            constructor <;> rintro rfl <;> exact absurd hlow (by decide)
          simp_all [stringChar]
        rw [htext, List.cons_append, List.cons_append, List.cons_append, List.cons_append,
          List.cons_append, List.cons_append, List.nil_append, takeString, hexCode?_control hlow]
        cases takeString rest <;> rfl
      · have hhigh : isHighSurrogate c.toNat = false := by
          simp [isHighSurrogate]
          omega
        have hlowSurrogate : isLowSurrogate c.toNat = false := by
          simp [isLowSurrogate]
          omega
        rw [pieceChars?.eq_def]
        simp [hhigh, hlowSurrogate]
  · refine ⟨.char c, fun rest => ?_, fun _ => rfl⟩
    by_cases hquote : c = '"'
    · subst hquote
      exact takeString_escape rfl rest
    by_cases hslash : c = '\\'
    · subst hslash
      exact takeString_escape rfl rest
    have htext : stringChar c = [c] := by
      have hshort : c ≠ '\x08' ∧ c ≠ '\x0c' ∧ c ≠ '\n' ∧ c ≠ '\r' ∧ c ≠ '\t' := by
        refine ⟨?_, ?_, ?_, ?_, ?_⟩ <;> rintro rfl <;> exact hlow (by decide)
      simp_all [stringChar]
    rw [htext]
    exact takeString_plain hquote hslash hlow rest

theorem takeString_flatMap (cs : List Char) : ∃ pieces, pieceChars? pieces = some cs ∧
    ∀ rest, takeString (cs.flatMap stringChar ++ '"' :: rest) = some (pieces, rest) := by
  induction cs with
  | nil => exact ⟨[], rfl, takeString_quote⟩
  | cons c cs ih =>
    obtain ⟨pieces, hpieces, hread⟩ := ih
    obtain ⟨piece, htake, hdenotes⟩ := takeString_stringChar c
    refine ⟨piece :: pieces, by rw [hdenotes, hpieces]; rfl, fun rest => ?_⟩
    rw [List.flatMap_cons, List.append_assoc, htake, hread]
    rfl

/-- **A string is read back.** -/
theorem tokens?_stringText (s : String) (rest : List Char) :
    tokens? ((stringText s).toList ++ rest) = (tokens? rest).map (.string (some s) :: ·) := by
  obtain ⟨pieces, hpieces, hread⟩ := takeString_flatMap s.toList
  have htext : (stringText s).toList ++ rest =
      '"' :: (s.toList.flatMap stringChar ++ '"' :: rest) := by
    simp [stringText]
  rw [htext]
  refine tokens?_of_token rfl ?_
  rw [takeToken?]
  simp [hread, hpieces]

/-! ### Words -/

theorem tokens?_null (rest : List Char) :
    tokens? ("null".toList ++ rest) = (tokens? rest).map (.atom (some .null) :: ·) :=
  tokens?_of_token rfl rfl

theorem tokens?_bool (b : Bool) (rest : List Char) :
    tokens? ((text (.bool b)).toList ++ rest) =
      (tokens? rest).map (.atom (some (.bool b)) :: ·) := by
  cases b <;> exact tokens?_of_token rfl rfl

/-! ## The last token -/

/-- The characters behind which a text goes on belong to a token, unless they are spaces. -/
theorem lastToken_of_tokens? {cs : List Char} {last : Char} (hlast : cs.getLast? = some last)
    (hspace : isSpace last = false) {tokens : List Token} (h : tokens? cs = some tokens) :
    ∃ front token before taken, tokens = front ++ [token] ∧ token.Spells taken ∧
      cs = before ++ taken := by
  induction hn : cs.length using Nat.strongRecOn generalizing cs tokens with
  | ind n ih =>
    subst hn
    cases cs with
    | nil => cases hlast
    | cons c rest =>
      rw [tokens?_cons] at h
      split at h
      · next hc =>
        cases rest with
        | nil =>
          obtain rfl : c = last := by simpa using hlast
          simp [hc] at hspace
        | cons d rest =>
          obtain ⟨front, token, before, taken, rfl, hspells, hcs⟩ :=
            ih (d :: rest).length (by simp) (by simpa using hlast) h rfl
          exact ⟨front, token, c :: before, taken, rfl, hspells, by rw [hcs]; rfl⟩
      · obtain ⟨⟨token, after⟩, htoken, h⟩ := Option.bind_eq_some_iff.1 h
        obtain ⟨others, hothers, rfl⟩ := Option.map_eq_some_iff.1 h
        obtain ⟨taken, hspells, htaken⟩ := takeToken?_eq_some htoken
        by_cases hafter : after = []
        · subst hafter
          cases hothers
          exact ⟨[], token, [], taken, rfl, hspells, by simpa using htaken⟩
        · -- what is left has the same last character
          obtain ⟨front, token', before, taken', rfl, hspells', rfl⟩ :=
            ih after.length (length_lt_of_takeToken? htoken)
              (by simpa [htaken, List.getLast?_append, hafter] using hlast) hothers rfl
          exact ⟨token :: front, token', taken ++ before, taken', rfl, hspells',
            by rw [htaken, List.append_assoc]⟩

end StructuredCall.Json
