import ActivityCatalogue.Proofs.Readings

/-!
# The lexemes of a type name

A text is cut into lexemes: runs of name characters, such runs behind a backtick, and single
signs.  `lexemes` does this for any text, from the characters alone.

Of a text that is a type, the names are the runs and the announced arities are the runs behind a
backtick, and what is rendered of the type shows its lexemes one by one: a name shortened or whole,
an arity not at all, a sign as it is (`Reading.shows`).  The lexemes are the same for whatever
namespaces.
-/

namespace ActivityCatalogue

namespace TypeName

/-! ## Lexemes -/

/-- A run of name characters, such a run with a backtick in front of it, or any other character. -/
inductive Lexeme where
  | name (run : List Char)
  | arity (run : List Char)
  | sign (c : Char)
  deriving DecidableEq

namespace Lexeme

def spelling : Lexeme → List Char
  | name run => run
  | arity run => Char.ofNat 0x60 :: run
  | sign c => [c]

/-- What a simplified text shows of a lexeme. -/
def shown (namespaces : NameSet) : Lexeme → List Char
  | name run => (QualifiedName.ofText run).rendering namespaces
  | arity _ => []
  | sign c => [c]

def isArity : Lexeme → Bool
  | arity _ => true
  | _ => false

end Lexeme

/-- The run in front, if there is one, and the lexemes behind it. -/
def leadingRun : List Lexeme → List Char × List Lexeme
  | .name run :: more => (run, more)
  | more => ([], more)

/-- Cuts a text into lexemes, the runs as long as possible. -/
def lexemes : List Char → List Lexeme
  | [] => []
  | c :: rest =>
    let (run, more) := leadingRun (lexemes rest)
    if c = Char.ofNat 0x60 then .arity run :: more
    else if isNameChar c then .name (c :: run) :: more
    else .sign c :: lexemes rest

theorem spelling_leadingRun (cut : List Lexeme) :
    (leadingRun cut).1 ++ (leadingRun cut).2.flatMap Lexeme.spelling =
      cut.flatMap Lexeme.spelling := by
  fun_cases leadingRun cut with
  | case1 run more => rfl
  | case2 => rfl

theorem spelling_lexemes (text : List Char) : (lexemes text).flatMap Lexeme.spelling = text := by
  induction text with
  | nil => rfl
  | cons c rest ih =>
      have hrun := spelling_leadingRun (lexemes rest)
      rw [ih] at hrun
      rw [lexemes]
      split_ifs with hmark hname
      · rw [List.flatMap_cons, Lexeme.spelling, List.cons_append, hrun, hmark]
      · rw [List.flatMap_cons, Lexeme.spelling, List.cons_append, hrun]
      · rw [List.flatMap_cons, Lexeme.spelling, ih, List.singleton_append]

example : lexemes "A.B`1<C[]>".toList =
    [.name ['A', '.', 'B'], .arity ['1'], .sign '<', .name ['C'], .sign '[', .sign ']',
      .sign '>'] := by
  decide +kernel

/-! ## Where a lexeme ends -/

theorem lexemes_sign {c : Char} (hmark : c ≠ Char.ofNat 0x60) (hname : isNameChar c = false)
    (rest : List Char) : lexemes (c :: rest) = .sign c :: lexemes rest := by
  rw [lexemes]
  simp [hmark, hname]

theorem leadingRun_lexemes {rest : List Char} (hrest : EndsName rest) :
    leadingRun (lexemes rest) = ([], lexemes rest) := by
  cases rest with
  | nil => rfl
  | cons c rest =>
      have hname : isNameChar c = false := hrest c rfl
      by_cases hmark : c = Char.ofNat 0x60
      · rw [lexemes]
        simp [hmark, leadingRun]
      · rw [lexemes_sign hmark hname]
        rfl

theorem ne_backtick_of_isNameChar {c : Char} (hc : isNameChar c = true) :
    c ≠ Char.ofNat 0x60 := by
  rintro rfl
  exact absurd hc (by decide)

theorem leadingRun_append {run rest : List Char} (hrun : ∀ c ∈ run, isNameChar c = true)
    (hrest : EndsName rest) : leadingRun (lexemes (run ++ rest)) = (run, lexemes rest) := by
  induction run with
  | nil => exact leadingRun_lexemes hrest
  | cons c run ih =>
      obtain ⟨hc, hrun⟩ := List.forall_mem_cons.mp hrun
      rw [List.cons_append, lexemes, ih hrun]
      simp [ne_backtick_of_isNameChar hc, hc, leadingRun]

theorem lexemes_name {run rest : List Char} (hnonempty : run ≠ [])
    (hrun : ∀ c ∈ run, isNameChar c = true) (hrest : EndsName rest) :
    lexemes (run ++ rest) = .name run :: lexemes rest := by
  obtain ⟨c, run, rfl⟩ := List.exists_cons_of_ne_nil hnonempty
  obtain ⟨hc, hrun⟩ := List.forall_mem_cons.mp hrun
  rw [List.cons_append, lexemes, leadingRun_append hrun hrest]
  simp [ne_backtick_of_isNameChar hc, hc]

theorem lexemes_arity {digits rest : List Char} (hdigits : ∀ c ∈ digits, isNameChar c = true)
    (hrest : EndsName rest) :
    lexemes (Char.ofNat 0x60 :: (digits ++ rest)) = .arity digits :: lexemes rest := by
  rw [lexemes, leadingRun_append hdigits hrest]
  simp

theorem isNameChar_of_isDigit {c : Char} (hc : c.isDigit = true) : isNameChar c = true := by
  obtain ⟨hlow, hhigh⟩ := Char.isDigit_iff_toNat.mp hc
  have hlow : 48 ≤ c.toNat := hlow
  have hhigh : c.toNat ≤ 57 := hhigh
  have hnumeric : Text.isNumeric c = true := by
    rw [Text.isNumeric, Text.numericRanges, Text.Ranges.covers]
    simp [hlow, hhigh]
  simp [isNameChar, isSegmentChar, hnumeric]

/-! ## What is shown of a type -/

/-- Between the two places the text is cut into lexemes that show `shown`, and behind the
backticks stand arities. -/
def Shows (shown : NameSet → List Char) (start next : Cursor) : Prop :=
  ∃ cut, lexemes start.rest = cut ++ lexemes next.rest ∧
    (∀ namespaces, cut.flatMap (Lexeme.shown namespaces) = shown namespaces) ∧
    ∀ digits, .arity digits ∈ cut → ∃ count, IsArity digits count

theorem Shows.trans {first second : NameSet → List Char} {start middle next : Cursor}
    (hfirst : Shows first start middle) (hsecond : Shows second middle next) :
    Shows (fun namespaces => first namespaces ++ second namespaces) start next := by
  obtain ⟨firstCut, hfirstCut, hfirstShown, hfirstArity⟩ := hfirst
  obtain ⟨secondCut, hsecondCut, hsecondShown, hsecondArity⟩ := hsecond
  refine ⟨firstCut ++ secondCut, ?_, fun namespaces => ?_, fun digits hdigits => ?_⟩
  · rw [hfirstCut, hsecondCut, List.append_assoc]
  · rw [List.flatMap_append, hfirstShown, hsecondShown]
  · rcases List.mem_append.mp hdigits with hdigits | hdigits
    · exact hfirstArity digits hdigits
    · exact hsecondArity digits hdigits

theorem shows_nil (cursor : Cursor) : Shows (fun _ => []) cursor cursor :=
  ⟨[], rfl, fun _ => rfl, nofun⟩

theorem Cursor.Passes.shows_sign {start next : Cursor} {c : Char} (hpasses : start.Passes [c] next)
    (hmark : c ≠ Char.ofNat 0x60) (hname : isNameChar c = false) :
    Shows (fun _ => [c]) start next := by
  refine ⟨[.sign c], ?_, fun _ => rfl, fun digits hdigits => ?_⟩
  · rw [hpasses.rest, List.singleton_append, lexemes_sign hmark hname, List.singleton_append]
  · exact nomatch List.mem_singleton.mp hdigits

theorem readName_shows {start next : Cursor} {name : Option QualifiedName}
    (hread : readName start = .ok (name, next)) :
    Shows (fun namespaces => name.elim [] (QualifiedName.rendering namespaces)) start next := by
  obtain ⟨text, hpasses, hderives⟩ := readName_sound NameMap.empty hread
  cases hderives with
  | absent =>
      obtain rfl := hpasses.eq_of_nil
      exact shows_nil _
  | present hname =>
      have hnonempty : text ≠ [] := by
        rintro rfl
        exact nomatch hname.startsSegment []
      have hends : EndsName next.rest := (readName_ends hread).resolve_right fun h => nomatch h.1
      refine ⟨[.name text], ?_, fun namespaces => ?_, fun digits hdigits => ?_⟩
      · rw [hpasses.rest, lexemes_name hnonempty hname.isNameChar hends, List.singleton_append]
      · rw [List.flatMap_singleton, Lexeme.shown, hname.ofText]
        rfl
      · exact nomatch List.mem_singleton.mp hdigits

theorem readArrays_shows {start next : Cursor} {arrays : Nat}
    (hread : readArrays start.offset start.rest = .ok (arrays, next)) :
    Shows (fun _ => brackets arrays) start next := by
  obtain ⟨hrest, -⟩ := readArrays_sound hread
  refine ⟨(brackets arrays).map .sign, ?_, fun _ => ?_, fun digits hdigits => ?_⟩
  · rw [show start.rest = brackets arrays ++ next.rest from hrest]
    clear hread hrest
    induction arrays with
    | zero => rfl
    | succ arrays ih =>
        rw [brackets_succ, List.cons_append, List.cons_append, lexemes_sign (by decide) (by decide),
          lexemes_sign (by decide) (by decide), ih]
        rfl
  · rw [List.flatMap_map]
    exact List.flatMap_singleton' _
  · obtain ⟨_, -, hsign⟩ := List.mem_map.mp hdigits
    exact nomatch hsign

/-- The announced arity is not shown. -/
theorem readArity_shows {start behindMark next opened : Cursor} {arity : Nat}
    (hmark : start.Passes [Char.ofNat 0x60] behindMark)
    (hread : readArity behindMark = .ok (arity, next)) (hopening : next.Passes ['<'] opened) :
    Shows (fun _ => []) start next := by
  obtain ⟨digits, count, hpasses, hcount, -⟩ := readArity_sound hread
  have hends : EndsName next.rest := by
    rw [hopening.rest]
    intro c hc
    obtain rfl : '<' = c := Option.some.inj hc
    decide
  refine ⟨[.arity digits], ?_, fun _ => rfl, fun found hfound => ?_⟩
  · rw [hmark.rest, hpasses.rest, List.singleton_append,
      lexemes_arity (fun c hc => isNameChar_of_isDigit (hcount.digit c hc)) hends,
      List.singleton_append]
  · cases List.mem_singleton.mp hfound
    exact ⟨count, hcount⟩

mutual

theorem Reading.shows {type : TypeName} {start next : Cursor} :
    Reading type start next → Shows (fun namespaces => type.rendering namespaces) start next
  | .type hname htemplate harrays => by
      have hwhole := ((readName_shows hname).trans (TemplateReading.shows htemplate)).trans
        (readArrays_shows harrays)
      simpa only [rendering_mk] using hwhole
termination_by structural reading => reading

theorem TemplateReading.shows {arguments : List TypeName} {start next : Cursor} :
    TemplateReading arguments start next →
      Shows (fun namespaces => templateRendering namespaces arguments) start next
  | .absent => shows_nil _
  | .present hmark harity hopening harguments hclosing => by
      have hbehindArity := readArity_shows hmark harity hopening
      have hopened := hopening.shows_sign (by decide) (by decide)
      have hclosed := hclosing.shows_sign (by decide) (by decide)
      have hwhole := hbehindArity.trans
        (hopened.trans ((ArgumentsReading.shows harguments).trans hclosed))
      simpa [templateRendering, bracketed, harguments.ne_nil] using hwhole
termination_by structural reading => reading

theorem ArgumentsReading.shows {types : List TypeName} {start next : Cursor} :
    ArgumentsReading types start next →
      Shows (fun namespaces => [','].intercalate (renderings namespaces types)) start next
  | .last htype _ => by
      simpa only [renderings, List.intercalate_singleton] using Reading.shows htype
  | .more htype _ hcomma hrest => by
      have hseparated := hcomma.shows_sign (by decide) (by decide)
      have hwhole := (Reading.shows htype).trans
        (hseparated.trans (ArgumentsReading.shows hrest))
      simpa only [intercalate_renderings_cons hrest.ne_nil, List.singleton_append] using hwhole
termination_by structural reading => reading

end

/-- What is rendered of a type that was read shows the lexemes of its text. -/
theorem read_shows {text : String} {type : TypeName} (hread : read text = .ok type) :
    (∀ namespaces, type.rendering namespaces =
      (lexemes text.toList).flatMap (Lexeme.shown namespaces)) ∧
    ∀ digits, .arity digits ∈ lexemes text.toList → ∃ count, IsArity digits count := by
  obtain ⟨next, hend, hreading⟩ := read_reading hread
  obtain ⟨cut, hcut, hshown, harity⟩ := hreading.shows
  rw [hend, lexemes, List.append_nil] at hcut
  have hcut : lexemes text.toList = cut := hcut
  rw [hcut]
  exact ⟨fun namespaces => (hshown namespaces).symm, harity⟩

end TypeName

end ActivityCatalogue
