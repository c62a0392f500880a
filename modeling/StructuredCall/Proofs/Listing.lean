import StructuredCall.Proofs.Conservative

/-!
# Results with listings and without

Listings and the log are asked for beside the result. A signature is the same with them and
without, and so is an error, but for one case. The list of tokens goes through all lines before
the first of them is read, and it stops at a line without tokens; then this line is reported, even
if an earlier line is in error (`Preempted`). In the named-result dialect that does not happen:
upgrading has been through all lines already, and each line that it gives has tokens
(`Dialect.lexes_upgrade`).

Main result: `Compilation.results_with_listings`.
-/

namespace StructuredCall

open Source (written)

/-! ## The list of tokens -/

namespace Token

/-- The error is that of the first line without tokens. -/
def FirstUnreadable (lines : List Line) (e : CompileError) : Prop :=
  ∃ before line after, lines = before ++ line :: after ∧ (∀ earlier ∈ before, earlier.Lexes) ∧
    ofLine line = .error e

/-- Lines are listed if all of them have tokens; otherwise the first one without is reported. -/
theorem listLines_cases (lines : List Line) :
    (∃ rows, listLines lines = .ok rows ∧ ∀ line ∈ lines, line.Lexes) ∨
      ∃ e, listLines lines = .error e ∧ FirstUnreadable lines e := by
  induction lines with
  | nil => exact .inl ⟨"", rfl, by simp⟩
  | cons line rest ih =>
    cases hline : ofLine line with
    | error e =>
      exact .inr ⟨e, by simp [listLines, hline, bind, Except.bind], [], line, rest, rfl, by simp,
        hline⟩
    | ok tokens =>
      have hlexes : line.Lexes := Line.lexes_iff.2 ⟨tokens, hline⟩
      rcases ih with ⟨rows, hrows, hrest⟩ | ⟨e, he, before, wrong, after, rfl, hbefore, hwrong⟩
      · have hlisted : ∃ text, listLines (line :: rest) = .ok text :=
          ⟨_, by rw [listLines, hline, Compiled.ok_bind, hrows]; rfl⟩
        obtain ⟨text, htext⟩ := hlisted
        exact .inl ⟨text, htext, List.forall_mem_cons.2 ⟨hlexes, hrest⟩⟩
      · refine .inr ⟨e, ?_, line :: before, wrong, after, rfl,
          List.forall_mem_cons.2 ⟨hlexes, hbefore⟩, hwrong⟩
        rw [listLines, hline, Compiled.ok_bind, he]
        rfl

end Token

/-! ## Upgraded lines -/

namespace Dialect

theorem current_of_upgrade {source upgraded : String} (h : upgrade source = .ok upgraded) :
    ∀ raw ∈ written upgraded, Current raw := by
  obtain ⟨last, hsteps⟩ := written_upgrade h
  exact hsteps.current (by simp)

/-- **Every line of an upgraded source has tokens**, unless it is ignored. -/
theorem lexes_upgrade {source upgraded : String} (h : upgrade source = .ok upgraded) :
    ∀ line ∈ Source.significant upgraded, line.Lexes := by
  intro line hline
  obtain ⟨hmem, hkept⟩ := List.mem_filter.1 hline
  obtain ⟨earlier, out, later, hwritten, rfl⟩ := Source.mem_lines_iff.1 hmem
  rcases current_of_upgrade h out (by simp [hwritten]) with hskip | ⟨_, ⟨kinds, hlexes, -⟩, -⟩
  · rw [← Source.isIgnored_withoutReturn] at hskip
    have hignored := (Source.isIgnored_content (Source.lineAfter earlier out)).symm.trans hskip
    simp [hignored] at hkept
  · exact ⟨kinds, Token.lexes_withoutReturn.2 hlexes⟩

end Dialect

namespace Compilation

/-! ## The result of a run -/

theorem result_readAfter (options : ReadOptions) (source listing : String) :
    (readAfter options source listing).result = Signature.ofSource source := by
  unfold readAfter
  split <;> simp_all

/-- A source is read behind the list of its tokens, if that is asked for. -/
theorem result_ofCurrent (options : ReadOptions) (source : String) :
    (ofCurrent options source).result =
      if options.showTokens then Token.list source >>= fun _ => Signature.ofSource source
      else Signature.ofSource source := by
  unfold ofCurrent
  split
  · dsimp only
    split
    · next he =>
      rw [he]
      rfl
    · next hlisting => rw [hlisting, Compiled.ok_bind, result_readAfter]
  · exact result_readAfter options source ""

theorem result_run (options : ReadOptions) (source : String) :
    (run options source).result = currentSource options source >>= fun current =>
      (ofCurrent options current).result := by
  unfold run
  split
  · next he =>
    rw [he]
    rfl
  · next hcurrent => rw [hcurrent, Compiled.ok_bind]

/-- Where all lines have tokens, their list makes no difference. -/
theorem result_of_lexes (options : ReadOptions) {source : String}
    (h : ∀ line ∈ Source.significant source, line.Lexes) :
    (ofCurrent options source).result = Signature.ofSource source := by
  rw [result_ofCurrent]
  split
  · rcases Token.listLines_cases (Source.significant source) with
      ⟨rows, hrows, -⟩ | ⟨e, -, before, line, after, hlines, -, hline⟩
    · rw [Token.list, hrows, Compiled.ok_bind]
    · have hmem : line ∈ Source.significant source := by
        rw [hlines]
        simp
      obtain ⟨tokens, htokens⟩ := Line.lexes_iff.1 (h line hmem)
      rw [hline] at htokens
      cases htokens
  · rfl

/-! ## Two runs -/

/-- The list of tokens stops behind the line in error, so that it does not come to be read. -/
def Preempted (options : ReadOptions) (source : String) (e : CompileError) : Prop :=
  options.showTokens = true ∧ options.legacy = false ∧ Dialect.Overtaken source e

/-- The results with listings and without, for a source in the current form. -/
theorem result_ofCurrent_cases (options : ReadOptions) (source : String) :
    (ofCurrent options source).result = Signature.ofSource source ∧
        (options.showTokens = true → ∀ e, ¬ Dialect.Overtaken source e) ∨
      ∃ e e', Signature.ofSource source = .error e ∧
        (ofCurrent options source).result = .error e' ∧ options.showTokens = true ∧
        Token.FirstUnreadable (Source.significant source) e' ∧
        (e = e' ∧ ¬ Dialect.Overtaken source e ∨
          Dialect.Overtaken source e ∧ e.line?.map (·.number) ≠ e'.line?.map (·.number)) := by
  cases hshow : options.showTokens with
  | false => exact .inl ⟨by simp [result_ofCurrent, hshow], by simp⟩
  | true =>
    rcases Token.listLines_cases (Source.significant source) with
      ⟨rows, -, hlexes⟩ | ⟨stop, hstop, hfirst⟩
    · exact .inl ⟨result_of_lexes options hlexes, fun _ e => Dialect.not_overtaken hlexes⟩
    · obtain ⟨before, line, after, hlines, hbefore, hline⟩ := id hfirst
      obtain ⟨e, he, hcase⟩ := Dialect.reported_of_unreadable hlines hbefore hline
      refine .inr ⟨e, stop, he, ?_, rfl, hfirst, hcase⟩
      rw [result_ofCurrent, if_pos hshow, Token.list, hstop]
      rfl

/-- **Listings do not change the result**, but for the line that is reported. With any listings
and with the log told, a source is read as the same signature as without, and one that is in error
without them is in error with them. The error is the same, unless the tokens of a source in the
current form are listed and a line behind the one in error has no tokens: then the first line
without tokens is reported in its place. -/
theorem results_with_listings (options : ReadOptions) (source : String) :
    (∀ signature, (run options source).result = .ok signature ↔
      Signature.compile options.legacy source = .ok signature) ∧
    ∀ e, Signature.compile options.legacy source = .error e →
      ∃ e', (run options source).result = .error e' ∧
        (e' = e ↔ ¬ Preempted options source e) ∧
        (Preempted options source e → e'.line?.map (·.number) ≠ e.line?.map (·.number) ∧
          Token.FirstUnreadable (Source.significant source) e') := by
  rw [result_run]
  cases hlegacy : options.legacy with
  | true =>
    -- an upgraded source has tokens on all of its lines, so listing them does not fail
    have hnot : ∀ e, ¬ Preempted options source e := by simp [Preempted, hlegacy]
    have hsame : (currentSource options source >>= fun current =>
        (ofCurrent options current).result) = Signature.compile true source := by
      rw [Signature.compile_eq_upgrade, currentSource, if_pos hlegacy]
      cases hupgrade : Dialect.upgrade source with
      | error => rfl
      | ok upgraded =>
        rw [Compiled.ok_bind, Compiled.ok_bind]
        exact result_of_lexes options (Dialect.lexes_upgrade hupgrade)
    rw [hsame]
    exact ⟨fun _ => Iff.rfl, fun e he =>
      ⟨e, he, iff_of_true rfl (hnot e), fun hpreempted => absurd hpreempted (hnot e)⟩⟩
  | false =>
    have hpreempted : ∀ e, Preempted options source e ↔
        options.showTokens = true ∧ Dialect.Overtaken source e := by simp [Preempted, hlegacy]
    rw [Signature.compile_eq_ofSource, currentSource, if_neg (by simp [hlegacy]),
      Compiled.ok_bind]
    rcases result_ofCurrent_cases options source with
      ⟨hsame, hnot⟩ | ⟨e, stop, he, hstop, hshow, hfirst, hcase⟩
    · rw [hsame]
      refine ⟨fun _ => Iff.rfl, fun e he => ?_⟩
      have hnot : ¬ Preempted options source e :=
        fun h => hnot ((hpreempted e).1 h).1 e ((hpreempted e).1 h).2
      exact ⟨e, he, iff_of_true rfl hnot, fun h => absurd h hnot⟩
    · rw [he, hstop]
      refine ⟨by simp, ?_⟩
      rintro _ ⟨⟩
      refine ⟨stop, rfl, ?_⟩
      rcases hcase with ⟨rfl, hnot⟩ | ⟨hovertaken, hnumber⟩
      · have hnot : ¬ Preempted options source e := fun h => hnot ((hpreempted e).1 h).2
        exact ⟨iff_of_true rfl hnot, fun h => absurd h hnot⟩
      · have hyes : Preempted options source e := (hpreempted e).2 ⟨hshow, hovertaken⟩
        refine ⟨iff_of_false ?_ (not_not_intro hyes), fun _ => ⟨hnumber.symm, hfirst⟩⟩
        rintro rfl
        exact hnumber rfl

/-- The second line is in error and all lines have tokens, so the listings change nothing. -/
theorem results_with_listings_of_type :
    let options : ReadOptions :=
      { showTokens := true, showSignature := true, verbose := true }
    let e := CompileError.unknownType "int" ⟨2, "int -> b", ⟨13, 16⟩⟩
    Signature.compile false "integer -> a\nint -> b" = .error e ∧
    ¬ Preempted options "integer -> a\nint -> b" e ∧
    (run options "integer -> a\nint -> b").result = .error e := by
  intro options e
  have he : Signature.compile false "integer -> a\nint -> b" = .error e := by decide +kernel
  have hlexes : ∀ line ∈ Source.significant "integer -> a\nint -> b", line.Lexes := by
    decide +kernel
  have hnot : ¬ Preempted options "integer -> a\nint -> b" e :=
    fun h => Dialect.not_overtaken hlexes h.2.2
  obtain ⟨e', hrun, hsame, -⟩ := (results_with_listings options "integer -> a\nint -> b").2 e he
  rw [hsame.2 hnot] at hrun
  exact ⟨he, hnot, hrun⟩

/-- The word `int` is an error on the first line. With the list of tokens, the dash behind it is
reported instead. -/
theorem results_with_listings_not_before_dash :
    ¬ ∀ (options other : ReadOptions) (source : String), options.legacy = other.legacy →
      (∀ signature, (run options source).result = .ok signature ↔
        (run other source).result = .ok signature) ∧
      ∀ e e', (run options source).result = .error e → (run other source).result = .error e' →
        e.title = e'.title ∧ e.line? = e'.line? := by
  intro h
  have hplain : (run {} "int -> a\ninteger - b").result =
      .error (.unknownType "int" ⟨1, "int -> a", ⟨0, 3⟩⟩) := by
    decide +kernel
  have hlisted : (run { showTokens := true } "int -> a\ninteger - b").result =
      .error (.malformed (.unexpectedCharacter '-') ⟨2, "integer - b", ⟨17, 18⟩⟩) := by
    decide +kernel
  obtain ⟨htitle, -⟩ := (h {} { showTokens := true } _ rfl).2 _ _ hplain hlisted
  exact absurd htitle (by decide)

end Compilation

end StructuredCall
