import StructuredCall.Proofs.Tiling

/-!
# Runs of dashes

Whether `->` is an arrow depends on the dashes in front of it. A word takes a dash together with the
character behind it, so it takes a run of dashes in pairs, and only the last dash of an odd run is
left to meet what is behind the run (`Token.oddEnds_pair`). There it is half of an arrow if that is
`>`, an error if that is a gap or the end of the line, and else part of a word.

So a line is read from the ends of its odd runs alone (`Token.reads_scan`). The runs are computed
along the text, and `Token.RunsOf` says which they are.

Main result: `Token.dashes_by_parity`.
-/

namespace StructuredCall.Token

/-! ## Runs -/

/-- Dashes one behind the other. -/
structure DashRun where
  /-- The byte of the first dash. -/
  start : Nat
  length : Nat
  /-- The character behind the run, which there is unless the line ends. -/
  next : Option Char
deriving Repr, DecidableEq

namespace DashRun

def last (run : DashRun) : Nat :=
  run.start + run.length - 1

def isOdd (run : DashRun) : Bool :=
  run.length % 2 = 1

end DashRun

/-- Whether a dash in front of this can be in no token. -/
def isDangling (next : Option Char) : Bool :=
  next.all isGap

/-- The runs of dashes in a text whose first byte is at `offset`. -/
def dashRuns (offset : Nat) : List Char → List DashRun
  | [] => []
  | c :: rest =>
    if c = '-' then
      let more := (rest.takeWhile (· = '-')).length
      let after := rest.dropWhile (· = '-')
      ⟨offset, more + 1, after.head?⟩ :: dashRuns (offset + more + 1) after
    else dashRuns (offset + c.utf8Size) rest
termination_by cs => cs.length
decreasing_by
  · exact Nat.lt_succ_of_le (List.dropWhile_sublist _).length_le
  · exact Nat.lt_succ_self _

/-- The run is between these parts of a text whose first byte is at `offset`, and no dash is next
to it. -/
structure DashRun.StandsIn (run : DashRun) (offset : Nat) (cs left right : List Char) : Prop where
  text : cs = left ++ (List.replicate run.length '-' ++ right)
  pos : 0 < run.length
  start : run.start = offset + Text.utf8Length left
  next : run.next = right.head?
  left_ne : left.getLast? ≠ some '-'
  right_ne : right.head? ≠ some '-'

/-- The runs of a text, from the left. -/
structure RunsOf (offset : Nat) (cs : List Char) (runs : List DashRun) : Prop where
  mem : ∀ run, run ∈ runs ↔ ∃ left right, run.StandsIn offset cs left right
  ordered : runs.Pairwise (·.start < ·.start)

theorem utf8Length_dashes (n : Nat) : Text.utf8Length (List.replicate n '-') = n := by
  induction n with
  | zero => rfl
  | succ n ih =>
    have hwidth : ('-' : Char).utf8Size = 1 := rfl
    rw [List.replicate_succ, Text.utf8Length, ih, hwidth, Nat.add_comm]

theorem head?_dashes {n : Nat} (hpos : 0 < n) (rest : List Char) :
    (List.replicate n '-' ++ rest).head? = some '-' := by
  cases n with
  | zero => exact absurd hpos (Nat.lt_irrefl 0)
  | succ n => rfl

theorem dashes_inj {m n : Nat} {xs ys : List Char} (hxs : xs.head? ≠ some '-')
    (hys : ys.head? ≠ some '-')
    (h : List.replicate m '-' ++ xs = List.replicate n '-' ++ ys) : m = n ∧ xs = ys := by
  induction m generalizing n with
  | zero =>
    cases n with
    | zero => exact ⟨rfl, h⟩
    | succ n => exact absurd (congrArg List.head? h) hxs
  | succ m ih =>
    cases n with
    | zero => exact absurd (congrArg List.head? h).symm hys
    | succ n =>
      obtain ⟨rfl, rfl⟩ := ih (List.cons.inj h).2
      exact ⟨rfl, rfl⟩

namespace RunsOf

variable {offset : Nat} {runs : List DashRun}

theorem nil (offset : Nat) : RunsOf offset [] [] := by
  refine ⟨fun run => ⟨fun hmem => absurd hmem List.not_mem_nil, ?_⟩, .nil⟩
  rintro ⟨left, right, htext, hpos, -⟩
  have hlength := congrArg List.length htext
  simp only [List.length_nil, List.length_append, List.length_replicate] at hlength
  omega

theorem cons_of_ne {c : Char} (hdash : c ≠ '-') {rest : List Char}
    (h : RunsOf (offset + c.utf8Size) rest runs) : RunsOf offset (c :: rest) runs := by
  refine ⟨fun run => (h.mem run).trans ⟨?_, ?_⟩, h.ordered⟩
  · rintro ⟨left, right, rfl, hpos, hstart, hnext, hleft, hright⟩
    refine ⟨c :: left, right, rfl, hpos, ?_, hnext, ?_, hright⟩
    · rw [hstart, Text.utf8Length, Nat.add_assoc]
    · cases left with
      | nil => simpa using hdash
      | cons d left => rwa [List.getLast?_cons_cons]
  · rintro ⟨left, right, htext, hpos, hstart, hnext, hleft, hright⟩
    cases left with
    | nil =>
      have hfirst := (congrArg List.head? htext).trans (head?_dashes hpos right)
      exact absurd (Option.some.inj hfirst) hdash
    | cons d left =>
      obtain ⟨rfl, hrest⟩ := List.cons.inj htext
      refine ⟨left, right, hrest, hpos, ?_, hnext, ?_, hright⟩
      · rw [hstart, Text.utf8Length, Nat.add_assoc]
      · cases left with
        | nil => simp
        | cons e left => rwa [List.getLast?_cons_cons] at hleft

theorem cons {length : Nat} (hpos : 0 < length) {after : List Char}
    (hafter : after.head? ≠ some '-') (h : RunsOf (offset + length) after runs) :
    RunsOf offset (List.replicate length '-' ++ after) (⟨offset, length, after.head?⟩ :: runs) := by
  have hbehind (inner : List Char) : offset + length + Text.utf8Length inner =
      offset + Text.utf8Length (List.replicate length '-' ++ inner) := by
    rw [Tiles.utf8Length_append, utf8Length_dashes, Nat.add_assoc]
  constructor
  case ordered =>
    refine List.pairwise_cons.2 ⟨fun run hmem => ?_, h.ordered⟩
    obtain ⟨left, right, hrun⟩ := (h.mem run).1 hmem
    have hstart := hrun.start
    show offset < run.start
    omega
  intro run
  rw [List.mem_cons, h.mem run]
  constructor
  · rintro (rfl | ⟨inner, right, rfl, hrun, hstart, hnext, hleft, hright⟩)
    · exact ⟨[], after, rfl, hpos, rfl, rfl, by simp, hafter⟩
    · refine ⟨List.replicate length '-' ++ inner, right, by simp, hrun, ?_, hnext, ?_, hright⟩
      · rw [hstart, hbehind]
      · cases inner with
        | nil => exact absurd (head?_dashes hrun right) hafter
        | cons d inner => rwa [List.getLast?_append_cons]
  · rintro ⟨left, right, htext, hrun, hstart, hnext, hleft, hright⟩
    rcases List.append_eq_append_iff.1 htext with ⟨inner, rfl, hrest⟩ | ⟨inner, hdashes, hrest⟩
    · refine .inr ⟨inner, right, hrest, hrun, by rw [hstart, hbehind], hnext, ?_, hright⟩
      cases inner with
      | nil => simp
      | cons d inner => rwa [List.getLast?_append_cons] at hleft
    · -- What is in front of the run is dashes too, so it is nothing.
      have hnone : left = [] := by
        rcases List.eq_nil_or_concat left with hnil | ⟨front, d, rfl⟩
        · exact hnil
        · have hd : d = '-' := List.eq_of_mem_replicate (n := length) (by simp [hdashes])
          simp [hd] at hleft
      subst hnone
      obtain ⟨hlength, rfl⟩ := dashes_inj hafter hright htext
      obtain ⟨start, n, next⟩ := run
      cases hlength
      cases hstart
      cases hnext
      exact .inl rfl

end RunsOf

/-- **`dashRuns` are the runs of a text.** -/
theorem runsOf_dashRuns (offset : Nat) (cs : List Char) :
    RunsOf offset cs (dashRuns offset cs) := by
  fun_induction dashRuns offset cs with
  | case1 offset => exact .nil offset
  | case2 offset rest more after ih =>
    have hmore : rest.takeWhile (· = '-') = List.replicate more '-' :=
      List.eq_replicate_iff.2 ⟨rfl, fun c hc =>
        by simpa using List.all_eq_true.1 List.all_takeWhile c hc⟩
    have hrest : '-' :: rest = List.replicate (more + 1) '-' ++ after := by
      rw [List.replicate_succ, List.cons_append, ← hmore, List.takeWhile_append_dropWhile]
    have hafter : after.head? ≠ some '-' := by
      intro hdash
      have hhead := List.head?_dropWhile_not (· = '-') rest
      rw [show (rest.dropWhile (· = '-')).head? = some '-' from hdash] at hhead
      simp at hhead
    rw [hrest]
    exact .cons (Nat.succ_pos more) hafter ih
  | case3 offset c rest hdash ih => exact ih.cons_of_ne hdash

/-! ## Odd runs -/

/-- The ends of the odd runs: the byte of the last dash, and what is behind it. -/
def oddEnds (offset : Nat) (cs : List Char) : List (Nat × Option Char) :=
  ((dashRuns offset cs).filter (·.isOdd)).map fun run => (run.last, run.next)

theorem oddEnds_nil (offset : Nat) : oddEnds offset [] = [] := by
  simp [oddEnds, dashRuns]

theorem oddEnds_cons_of_ne {c : Char} (hdash : c ≠ '-') (offset : Nat) (rest : List Char) :
    oddEnds offset (c :: rest) = oddEnds (offset + c.utf8Size) rest := by
  simp [oddEnds, dashRuns, hdash]

theorem oddEnds_dash {rest : List Char} (h : rest.head? ≠ some '-') (offset : Nat) :
    oddEnds offset ('-' :: rest) = (offset, rest.head?) :: oddEnds (offset + 1) rest := by
  have htake : rest.takeWhile (· = '-') = [] := by cases rest <;> simp_all
  have hdrop : rest.dropWhile (· = '-') = rest := by cases rest <;> simp_all
  simp [oddEnds, dashRuns, htake, hdrop, DashRun.isOdd, DashRun.last]

/-- **Two dashes in front change neither the parity of a run nor its end.** -/
theorem oddEnds_pair (offset : Nat) (rest : List Char) :
    oddEnds offset ('-' :: '-' :: rest) = oddEnds (offset + 2) rest := by
  cases rest with
  | nil => simp [oddEnds, dashRuns, DashRun.isOdd]
  | cons c rest =>
    by_cases hdash : c = '-'
    · subst hdash
      set more := (rest.takeWhile (· = '-')).length with hmore
      have hparity : (more + 1 + 1 + 1) % 2 = 1 ↔ (more + 1) % 2 = 1 := by omega
      have hlast : offset + (more + 1 + 1 + 1) - 1 = offset + 2 + (more + 1) - 1 := by omega
      have hbehind : offset + (more + 1 + 1) + 1 = offset + 2 + more + 1 := by omega
      simp only [oddEnds, dashRuns, List.takeWhile_cons, List.dropWhile_cons, if_true, decide_true,
        List.length_cons, ← hmore, List.filter_cons, DashRun.isOdd, hparity, hbehind]
      split <;> simp [DashRun.last, hlast]
    · simp [oddEnds, dashRuns, hdash, DashRun.isOdd]

/-! ## Words -/

/-- The dash and what is behind it are a pair in a word. -/
def Paired (next : Option Char) : Prop :=
  ∃ c, next = some c ∧ endsWord c = false ∧ c ≠ '>'

/-- What a word takes of the odd runs is paired. -/
theorem oddEnds_takeWord (offset : Nat) (cs : List Char) : ∃ inner,
    oddEnds offset cs =
      inner ++ oddEnds (offset + Text.utf8Length (takeWord cs).1) (takeWord cs).2 ∧
    ∀ stop ∈ inner, Paired stop.2 := by
  fun_induction takeWord cs generalizing offset with
  | case1 => exact ⟨[], by simp [Text.utf8Length], by simp⟩
  | case2 => exact ⟨[], by simp [Text.utf8Length], by simp⟩
  | case3 => exact ⟨[], by simp [Text.utf8Length], by simp⟩
  | case4 c rest hc ih =>
    obtain ⟨inner, hinner, hpaired⟩ := ih (offset + 1 + c.utf8Size)
    have hwidth : ('-' : Char).utf8Size = 1 := rfl
    simp only [Text.utf8Length, hwidth, ← Nat.add_assoc]
    -- two dashes leave a run as odd as it was; a dash in front of something else is its odd end
    by_cases hdash : c = '-'
    · subst hdash
      exact ⟨inner, by rw [oddEnds_pair, ← hinner]; rfl, hpaired⟩
    · refine ⟨(offset, some c) :: inner, ?_, ?_⟩
      · rw [oddEnds_dash (by simpa using hdash), oddEnds_cons_of_ne hdash, hinner]
        rfl
      · refine List.forall_mem_cons.2 ⟨⟨c, rfl, ?_⟩, hpaired⟩
        simpa using hc
  | case5 => exact ⟨[], by simp [Text.utf8Length], by simp⟩
  | case6 c rest hlone hpair hc ih =>
    obtain ⟨inner, hinner, hpaired⟩ := ih (offset + c.utf8Size)
    refine ⟨inner, ?_, hpaired⟩
    rw [oddEnds_cons_of_ne (ne_dash hlone hpair), hinner, Text.utf8Length, Nat.add_assoc]

theorem Paired.not_dangling {next : Option Char} (h : Paired next) : isDangling next = false := by
  obtain ⟨c, rfl, hc, -⟩ := h
  simp_all [isDangling, endsWord]

theorem Paired.ne_arrow {next : Option Char} (h : Paired next) : next ≠ some '>' := by
  obtain ⟨c, rfl, -, hc⟩ := h
  simpa using hc

/-! ## Lines -/

/-- What reading finds in a text with these ends of odd runs: the first that is dangling, or else an
arrow at every end in front of `>`. -/
def ReadsEnds (line : Line) (stops : List (Nat × Option Char)) : Compiled (List Token) → Prop
  | .ok tokens => stops.find? (isDangling ·.2) = none ∧
    (tokens.filter (·.kind = .arrow)).map (·.span) =
      (stops.filter (·.2 = some '>')).map fun stop => ⟨stop.1, stop.1 + 2⟩
  | .error e => ∃ stop, stops.find? (isDangling ·.2) = some stop ∧
    e = .malformed (.unexpectedCharacter '-') (line.narrow ⟨stop.1, stop.1 + 1⟩)

variable {line : Line} {stops : List (Nat × Option Char)} {result : Compiled (List Token)}

theorem ReadsEnds.word {inner : List (Nat × Option Char)} (hinner : ∀ stop ∈ inner, Paired stop.2)
    (h : ReadsEnds line stops result) (text : String) (span : Span) :
    ReadsEnds line (inner ++ stops) (result.map (⟨.word text, span⟩ :: ·)) := by
  have hdangling : inner.find? (isDangling ·.2) = none :=
    List.find?_eq_none.2 fun stop hmem => by simp [(hinner stop hmem).not_dangling]
  have harrows : inner.filter (·.2 = some '>') = [] :=
    List.filter_eq_nil_iff.2 fun stop hmem => by simpa using (hinner stop hmem).ne_arrow
  have hfind : (inner ++ stops).find? (isDangling ·.2) = stops.find? (isDangling ·.2) := by
    rw [List.find?_append, hdangling, Option.none_or]
  cases result with
  | ok tokens => exact ⟨hfind.trans h.1, by simpa [harrows] using h.2⟩
  | error e =>
    obtain ⟨stop, hstop, he⟩ := h
    exact ⟨stop, hfind.trans hstop, he⟩

theorem ReadsEnds.arrow (h : ReadsEnds line stops result) (place : Nat) :
    ReadsEnds line ((place, some '>') :: stops)
      (result.map (⟨.arrow, ⟨place, place + 2⟩⟩ :: ·)) := by
  have hfind : ((place, some '>') :: stops).find? (isDangling ·.2) =
      stops.find? (isDangling ·.2) :=
    List.find?_cons_of_neg (by simp [isDangling, isGap])
  cases result with
  | ok tokens => exact ⟨hfind.trans h.1, by simpa using h.2⟩
  | error e =>
    obtain ⟨stop, hstop, he⟩ := h
    exact ⟨stop, hfind.trans hstop, he⟩

/-- Where no token starts there is a dash, and nothing behind it that a word could take. -/
theorem dangling_of_takeWord {c : Char} {rest after : List Char} (hgap : isGap c = false)
    (hfeed : '\n' ∉ c :: rest) (harrow : ∀ more, c = '-' → rest ≠ '>' :: more)
    (h : takeWord (c :: rest) = ([], after)) :
    c = '-' ∧ isDangling rest.head? = true ∧ rest.head? ≠ some '-' := by
  have hends : ∀ d ∈ c :: rest, endsWord d = isGap d := by
    rintro d hd
    have hne : d ≠ '\n' := fun heq => hfeed (heq ▸ hd)
    simp [endsWord, hne]
  by_cases hdash : c = '-'
  · subst hdash
    refine ⟨rfl, ?_⟩
    cases rest with
    | nil => exact ⟨rfl, by simp⟩
    | cons d more =>
      have hd : d ≠ '>' := fun heq => harrow more rfl (heq ▸ rfl)
      have hgap' : isGap d = true := by
        by_contra hno
        have hopen : endsWord d = false := by simpa [hends d (by simp)] using hno
        simp [takeWord, hopen, hd] at h
      refine ⟨hgap', ?_⟩
      rintro ⟨rfl⟩
      exact absurd hgap' (by decide)
  · -- any other character that is no gap starts a word
    have hopen : endsWord c = false := by rw [hends c (by simp), hgap]
    rw [takeWord_cons_of_ne hdash hopen] at h
    simp at h

/-- **A line is read from the ends of its odd runs.** -/
theorem reads_scan (line : Line) (offset : Nat) (cs : List Char) (hfeed : '\n' ∉ cs) :
    ReadsEnds line (oddEnds offset cs) (scan line offset cs) := by
  fun_induction scan line offset cs with
  | case1 offset => simp [ReadsEnds, oddEnds_nil]
  | case2 offset rest ih =>
    rw [oddEnds_dash (by simp), oddEnds_cons_of_ne (by decide)]
    exact (ih fun hmem => hfeed (by simp [hmem])).arrow offset
  | case3 offset c rest harrow hgap ih =>
    have hdash : c ≠ '-' := by
      rintro rfl
      exact absurd hgap (by decide)
    rw [oddEnds_cons_of_ne hdash]
    exact ih fun hmem => hfeed (List.mem_cons_of_mem _ hmem)
  | case4 offset c rest harrow hgap after hnone =>
    obtain ⟨rfl, hdangling, hlast⟩ := dangling_of_takeWord (by simpa using hgap) hfeed harrow hnone
    refine ⟨(offset, rest.head?), ?_, rfl⟩
    rw [oddEnds_dash hlast]
    exact List.find?_cons_of_pos hdangling
  | case5 offset c rest harrow hgap d word after htake =>
    rename_i ih
    -- the odd runs inside of a word are paired: they neither dangle nor are arrows
    obtain ⟨inner, hinner, hpaired⟩ := oddEnds_takeWord offset (c :: rest)
    rw [htake] at hinner
    rw [hinner]
    have hafter : '\n' ∉ after := fun hmem => hfeed (by
      rw [← takeWord_append (c :: rest), htake]
      exact List.mem_append_right _ hmem)
    exact (ih hafter).word hpaired _ _

/-! ## Runs and tokens -/

/-- Whether the last dash of a run is in no token. -/
def DashRun.dangles (run : DashRun) : Bool :=
  run.isOdd && isDangling run.next

/-- Whether the last dash of a run is half of an arrow. -/
def DashRun.pointsOn (run : DashRun) : Bool :=
  run.isOdd && run.next = some '>'

theorem find?_oddEnds (offset : Nat) (cs : List Char) :
    (oddEnds offset cs).find? (isDangling ·.2) =
      ((dashRuns offset cs).find? DashRun.dangles).map fun run => (run.last, run.next) := by
  rw [oddEnds, List.find?_map, List.find?_filter]
  congr 2
  funext run
  simp [DashRun.dangles]

theorem filter_oddEnds (offset : Nat) (cs : List Char) :
    (oddEnds offset cs).filter (·.2 = some '>') =
      ((dashRuns offset cs).filter DashRun.pointsOn).map fun run => (run.last, run.next) := by
  rw [oddEnds, List.filter_map, List.filter_filter]
  congr 2
  funext run
  exact Bool.and_comm _ _

/-- A token that has a byte of a line is a word, unless it is an arrow. -/
theorem Tiles.isWord_of_holds {offset place : Nat} {cs : List Char} {tokens : List Token}
    (h : Tiles offset cs tokens) {token : Token} (hmem : token ∈ tokens)
    (hholds : token.span.Holds place) (harrow : token.kind ≠ .arrow) : token.word?.isSome := by
  obtain ⟨body, rfl, hbody⟩ := h.ended
  rcases List.mem_append.1 hmem with hmem | hmem
  · have hend := (hbody token hmem).1
    unfold word?
    split <;> simp_all
  · obtain rfl := List.mem_singleton.1 hmem
    simp only [Span.Holds] at hholds
    omega

/-- **Dashes are read by parity.** The runs are those that no dash is next to. A line fails exactly
if an odd run is in front of a gap or ends the line; the first such run decides, and its last dash
is the error. Otherwise the arrows are, in order, the last dashes of the odd runs in front of `>`,
each with that `>`, and every other dash and `>` is in a word. -/
theorem dashes_by_parity {line : Line} (hline : Text.OneLine line.content) :
    let runs := dashRuns line.span.start line.content.toList
    let arrows := (runs.filter DashRun.pointsOn).map fun run => Span.mk run.last (run.last + 2)
    RunsOf line.span.start line.content.toList runs ∧
    ((∃ e, ofLine line = .error e) ↔ ∃ run ∈ runs, run.dangles) ∧
    (∀ e, ofLine line = .error e → ∃ run, runs.find? DashRun.dangles = some run ∧
      e = .malformed (.unexpectedCharacter '-') (line.narrow ⟨run.last, run.last + 1⟩)) ∧
    ∀ tokens, ofLine line = .ok tokens →
      (tokens.filter (·.kind = .arrow)).map (·.span) = arrows ∧
      ∀ left c right, line.content.toList = left ++ c :: right → c = '-' ∨ c = '>' →
        (∃ arrow ∈ arrows, arrow.Holds (line.span.start + Text.utf8Length left)) ∨
        ∃ token ∈ tokens, token.word?.isSome ∧
          token.span.Holds (line.span.start + Text.utf8Length left) := by
  intro runs arrows
  have hreads := reads_scan line line.span.start line.content.toList hline
  refine ⟨runsOf_dashRuns _ _, ?_⟩
  cases hresult : ofLine line with
  | error e =>
    rw [ofLine] at hresult
    rw [hresult] at hreads
    obtain ⟨stop, hstop, he⟩ := hreads
    rw [find?_oddEnds] at hstop
    obtain ⟨run, hrun, rfl⟩ := Option.map_eq_some_iff.1 hstop
    refine ⟨⟨fun _ => ?_, fun _ => ⟨e, rfl⟩⟩, ?_, by rintro tokens ⟨⟩⟩
    · exact ⟨run, List.mem_of_find?_eq_some hrun, List.find?_some hrun⟩
    · rintro e' ⟨⟩
      exact ⟨run, hrun, he⟩
  | ok tokens =>
    rw [ofLine] at hresult
    rw [hresult] at hreads
    obtain ⟨hnone, harrows⟩ := hreads
    rw [find?_oddEnds, Option.map_eq_none_iff, List.find?_eq_none] at hnone
    rw [filter_oddEnds, List.map_map] at harrows
    refine ⟨⟨by rintro ⟨e, ⟨⟩⟩, ?_⟩, by rintro e ⟨⟩, ?_⟩
    · rintro ⟨run, hmem, hdangles⟩
      exact absurd hdangles (hnone run hmem)
    · rintro tokens' ⟨⟩
      refine ⟨harrows, fun left c right hcontent hc => ?_⟩
      have hgap : isGap c = false := by
        rcases hc with rfl | rfl <;> decide
      have htiles := tiles_scan hresult
      -- the tokens and the gaps tile the line, and `c` is no gap
      obtain ⟨token, hmem, hholds⟩ : ∃ token ∈ tokens,
          token.span.Holds (line.span.start + Text.utf8Length left) := by
        by_contra hnone
        push Not at hnone
        simp [(htiles.gap_iff hcontent).2 hnone] at hgap
      by_cases harrow : token.kind = .arrow
      · refine .inl ⟨token.span, ?_, hholds⟩
        have hspan : token.span ∈ (tokens.filter (·.kind = .arrow)).map (·.span) :=
          List.mem_map_of_mem (List.mem_filter.2 ⟨hmem, by simpa using harrow⟩)
        rwa [harrows] at hspan
      · exact .inr ⟨token, hmem, htiles.isWord_of_holds hmem hholds harrow, hholds⟩

/-- Runs of two, three and one dash in front of `>`, and one of three in front of a letter. -/
theorem dashes_by_parity_of_four :
    let line : Line := ⟨1, "a-->--->b->---c", ⟨5, 20⟩⟩
    let tokens : List Token := [⟨.word "a-->--", ⟨5, 11⟩⟩, ⟨.arrow, ⟨11, 13⟩⟩,
      ⟨.word "b", ⟨13, 14⟩⟩, ⟨.arrow, ⟨14, 16⟩⟩, ⟨.word "---c", ⟨16, 20⟩⟩, ⟨.endOfLine, ⟨20, 20⟩⟩]
    Text.OneLine line.content ∧ ofLine line = .ok tokens ∧
      ((dashRuns 5 line.content.toList).filter DashRun.pointsOn).map
        (fun run => Span.mk run.last (run.last + 2)) = [⟨11, 13⟩, ⟨14, 16⟩] := by
  intro line tokens
  have hline : Text.OneLine line.content := by decide
  have hread : ofLine line = .ok tokens := by decide +kernel
  refine ⟨hline, hread, ?_⟩
  rw [← ((dashes_by_parity hline).2.2.2 tokens hread).1]
  decide

end StructuredCall.Token
