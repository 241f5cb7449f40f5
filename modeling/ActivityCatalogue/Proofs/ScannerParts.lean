import ActivityCatalogue.Proofs.ByteScanner

/-!
# Scanning the parts of a type name

A track is safe if every station on it is a boundary of the text and nests no deeper than it may,
and if no station lies before an earlier one.  From a safe track at the place of a cursor, each
part of the scanner ends as the reader does from the cursor: with the same value at the place
where the reader ends, or with the same violation (`Agrees`).  It never strays, the track is safe
afterwards, and the nesting is what it was.

The parts without arguments are here: names (`name_agrees`), arities (`arity_agrees`) and array
brackets (`arrays_agrees`).
-/

namespace ActivityCatalogue

namespace TypeName

variable {α β : Type} {text : List Char} {depth : Nat} {track after : Track}
  {cursor next : Cursor}

/-! ## Places in the text -/

/-- Who passes two texts stands between them on the way. -/
theorem Cursor.Passes.split {first second : List Char}
    (hpasses : cursor.Passes (first ++ second) next) :
    ∃ middle, cursor.Passes first middle ∧ Cursor.Passes middle second next := by
  refine ⟨⟨cursor.offset + width first, second ++ next.rest⟩, ⟨?_, rfl⟩, ⟨rfl, ?_⟩⟩
  · rw [hpasses.rest, List.append_assoc]
  · rw [hpasses.offset, width_append, Nat.add_assoc]

/-- The cursor stands between what it has passed of the text and what is left. -/
def Cursor.IsIn (text : List Char) (cursor : Cursor) : Prop :=
  ∃ before, text = before ++ cursor.rest ∧ width before = cursor.offset

namespace Cursor.IsIn

theorem isBoundary (hin : cursor.IsIn text) : IsBoundary text cursor.offset := by
  obtain ⟨before, htext, hbefore⟩ := hin
  exact ⟨before, cursor.rest, htext, hbefore⟩

theorem passes (hin : cursor.IsIn text) {taken : List Char} (hpasses : cursor.Passes taken next) :
    next.IsIn text := by
  obtain ⟨before, rfl, hbefore⟩ := hin
  refine ⟨before ++ taken, ?_, ?_⟩
  · rw [hpasses.rest, List.append_assoc]
  · rw [width_append, hbefore, hpasses.offset]

/-- What was passed is what stands between the two offsets. -/
theorem slice? (hin : cursor.IsIn text) {taken : List Char} (hpasses : cursor.Passes taken next) :
    slice? cursor.offset next.offset text = some taken := by
  obtain ⟨before, rfl, hbefore⟩ := hin
  rw [hpasses.offset, hpasses.rest, ← hbefore, slice?_width]

end Cursor.IsIn

/-! ## Safe tracks -/

structure Track.IsSafe (text : List Char) (track : Track) : Prop where
  boundary : ∀ station ∈ track.stations, IsBoundary text station.offset
  depth : ∀ station ∈ track.stations, station.depth ≤ maxNesting
  forward : track.stations.Pairwise fun later earlier => earlier.offset ≤ later.offset

theorem Track.isSafe_start (text : List Char) : Track.start.IsSafe text where
  boundary := List.forall_mem_singleton.mpr ⟨[], text, rfl, rfl⟩
  depth := List.forall_mem_singleton.mpr (Nat.zero_le _)
  forward := List.pairwise_singleton _ _

theorem Track.IsSafe.moveTo (hsafe : track.IsSafe text) {station : Station}
    (hboundary : IsBoundary text station.offset) (hdepth : station.depth ≤ maxNesting)
    (hforward : track.now.offset ≤ station.offset) : (track.moveTo station).IsSafe text where
  boundary := List.forall_mem_cons.mpr ⟨hboundary, hsafe.boundary⟩
  depth := List.forall_mem_cons.mpr ⟨hdepth, hsafe.depth⟩
  forward := by
    refine List.pairwise_cons.mpr ⟨fun earlier hearlier => ?_, hsafe.forward⟩
    rcases List.mem_cons.mp hearlier with rfl | hpast
    · exact hforward
    · exact ((List.pairwise_cons.mp hsafe.forward).1 earlier hpast).trans hforward

/-- The track is safe and has come to the place of a cursor. -/
structure Track.Stands (text : List Char) (depth : Nat) (cursor : Cursor) (track : Track) :
    Prop where
  safe : track.IsSafe text
  offset : track.now.offset = cursor.offset
  depth : track.now.depth = depth
  isIn : cursor.IsIn text

theorem Track.stands_start (text : String) :
    Track.start.Stands text.toList 0 (.start text) where
  safe := Track.isSafe_start _
  offset := rfl
  depth := rfl
  isIn := ⟨[], rfl, rfl⟩

/-- Every safe track is at the place of some cursor. -/
theorem Track.IsSafe.exists_stands (hsafe : track.IsSafe text) :
    ∃ cursor, track.Stands text track.now.depth cursor := by
  obtain ⟨before, rest, htext, hbefore⟩ := hsafe.boundary track.now List.mem_cons_self
  exact ⟨⟨track.now.offset, rest⟩, hsafe, rfl, rfl, before, htext, hbefore⟩

namespace Track.Stands

theorem charsFrom? (hstands : track.Stands text depth cursor) :
    charsFrom? track.now.offset text = some cursor.rest := by
  obtain ⟨before, rfl, hbefore⟩ := hstands.isIn
  rw [hstands.offset, ← hbefore, charsFrom?_width]

theorem length_rest_lt (hstands : track.Stands text depth cursor) :
    cursor.rest.length < Scan.rounds text := by
  obtain ⟨before, rfl, hbefore⟩ := hstands.isIn
  have hlength := length_le_width cursor.rest
  rw [Scan.rounds, width_append]
  omega

theorem movedBy (hstands : track.Stands text depth cursor) {c : Char}
    (hpasses : cursor.Passes [c] next) :
    (track.movedBy c.utf8Size).Stands text depth next := by
  have hin := hstands.isIn.passes hpasses
  have hmoved : track.now.offset + c.utf8Size = next.offset := by
    rw [hstands.offset, hpasses.offset]
    rfl
  refine ⟨hstands.safe.moveTo ?_ ?_ (Nat.le_add_right _ _), hmoved, hstands.depth, hin⟩
  · exact hmoved ▸ hin.isBoundary
  · exact hstands.safe.depth track.now List.mem_cons_self

end Track.Stands

/-! ## Agreement with a reader -/

/-- A scan has ended as a reader has.  No scan that strays agrees with anything. -/
inductive Agrees (text : List Char) (depth : Nat) :
    Except Violation (α × Cursor) → EStateM.Result Stop Track α → Prop
  | ok {value : α} {next : Cursor} {after : Track} (hstands : after.Stands text depth next) :
      Agrees text depth (.ok (value, next)) (.ok value after)
  | violated {violation : Violation} {after : Track} (hsafe : after.IsSafe text)
      (hdepth : after.now.depth = depth) :
      Agrees text depth (.error violation) (.error (.violated violation) after)

namespace Scan

theorem bind_of_ok {scan : Scan α} {value : α} (hscan : scan track = .ok value after)
    (next : α → Scan β) : (scan >>= next) track = next value after := by
  show EStateM.bind scan next track = _
  rw [EStateM.bind, hscan]

theorem bind_of_error {scan : Scan α} {stop : Stop} (hscan : scan track = .error stop after)
    (next : α → Scan β) : (scan >>= next) track = .error stop after := by
  show EStateM.bind scan next track = _
  rw [EStateM.bind, hscan]

end Scan

theorem Agrees.bind {scan : Scan α} {more : α → Scan β}
    {first : Except Violation (α × Cursor)} {further : α × Cursor → Except Violation (β × Cursor)}
    (hfirst : Agrees text depth first (scan track))
    (hmore : ∀ value middle after, first = .ok (value, middle) → after.Stands text depth middle →
      Agrees text depth (further (value, middle)) (more value after)) :
    Agrees text depth (first >>= further) ((scan >>= more) track) := by
  cases hscan : scan track with
  | ok value after =>
      rw [hscan] at hfirst
      cases hfirst with
      | ok hstands =>
          rw [Scan.bind_of_ok hscan]
          exact hmore _ _ _ rfl hstands
  | error stop after =>
      rw [hscan] at hfirst
      cases hfirst with
      | violated hsafe hdepth =>
          rw [Scan.bind_of_error hscan]
          exact .violated hsafe hdepth

/-- A scan that takes a value goes on from where it has come to. -/
theorem Agrees.step {scan : Scan α} {more : α → Scan β} {value : α}
    {result : Except Violation (β × Cursor)}
    (hfirst : Agrees text depth (.ok (value, next)) (scan track))
    (hmore : ∀ after, after.Stands text depth next → Agrees text depth result (more value after)) :
    Agrees text depth result ((scan >>= more) track) := by
  show Agrees text depth (Except.ok (value, next) >>= fun _ => result) _
  refine hfirst.bind fun _ _ _ heq hstands => ?_
  cases heq
  exact hmore _ hstands

/-- A scan that is stopped does not go on. -/
theorem Agrees.stop {scan : Scan α} {violation : Violation}
    (hfirst : Agrees text depth (.error violation) (scan track)) (more : α → Scan β) :
    Agrees text depth (.error violation) ((scan >>= more) track) := by
  show Agrees text depth (Except.error violation >>= fun _ : α × Cursor => Except.error violation) _
  exact hfirst.bind fun _ _ _ heq => nomatch heq

theorem Cursor.Passes.head? {c : Char} (hpasses : cursor.Passes [c] next) :
    cursor.rest.head? = some c := by
  rw [hpasses.rest]
  rfl

/-- The next character is another one if the expected one cannot be passed. -/
theorem Cursor.head?_ne_of_eat? {expected : Char} (hnone : cursor.eat? expected = none) :
    cursor.rest.head? ≠ some expected := by
  intro hhead
  obtain ⟨rest, hrest⟩ := List.head?_eq_some_iff.mp hhead
  have hpasses : cursor.Passes [expected] ⟨cursor.offset + width [expected], rest⟩ := ⟨hrest, rfl⟩
  rw [Cursor.eat?_eq_some_iff.mpr hpasses] at hnone
  exact nomatch hnone

namespace Scan

/-! ## Looking and moving -/

theorem offset_eq (hstands : track.Stands text depth cursor) :
    offset track = .ok cursor.offset track := by
  rw [← hstands.offset]
  rfl

theorem rest_eq (hstands : track.Stands text depth cursor) :
    rest text track = .ok cursor.rest track := by
  rw [rest, bind_of_ok (offset_eq hstands), ← hstands.offset, hstands.charsFrom?]
  rfl

theorem peek_eq (hstands : track.Stands text depth cursor) :
    peek text track = .ok cursor.rest.head? track := by
  rw [peek, bind_of_ok (rest_eq hstands)]
  rfl

theorem bump_agrees (hstands : track.Stands text depth cursor) {c : Char}
    (hpasses : cursor.Passes [c] next) :
    Agrees text depth (.ok ((), next)) (bump c track) :=
  .ok (hstands.movedBy hpasses)

theorem violate_agrees (hstands : track.Stands text depth cursor) (violation : Violation) :
    Agrees text depth (.error violation) ((violate violation : Scan α) track) :=
  .violated hstands.safe hstands.depth

theorem pure_agrees (hstands : track.Stands text depth cursor) (value : α) :
    Agrees text depth (.ok (value, cursor)) ((pure value : Scan α) track) :=
  .ok hstands

theorem advance_agrees (hstands : track.Stands text depth cursor) {c : Char}
    (hpasses : cursor.Passes [c] next) :
    Agrees text depth (.ok ((), next)) (advance text track) := by
  rw [advance, bind_of_ok (peek_eq hstands), hpasses.head?]
  exact bump_agrees hstands hpasses

theorem eat_of_passes (hstands : track.Stands text depth cursor) {expected : Char}
    (hpasses : cursor.Passes [expected] next) :
    Agrees text depth (.ok (true, next)) (eat text expected track) := by
  rw [eat, bind_of_ok (peek_eq hstands), if_pos hpasses.head?]
  exact (bump_agrees hstands hpasses).step fun after hafter => pure_agrees hafter true

theorem eat_of_head_ne (hstands : track.Stands text depth cursor) {expected : Char}
    (hhead : cursor.rest.head? ≠ some expected) : eat text expected track = .ok false track := by
  rw [eat, bind_of_ok (peek_eq hstands), if_neg hhead]
  rfl

/-- What has to come next is passed, or its absence is the violation. -/
theorem expect_agrees {more : Unit → Scan β}
    {further : Cursor → Except Violation (β × Cursor)} {expected : Char}
    {violation : Nat → Violation} (hstands : track.Stands text depth cursor)
    (hmore : ∀ next after, cursor.Passes [expected] next → after.Stands text depth next →
      Agrees text depth (further next) (more () after)) :
    Agrees text depth (cursor.eat expected violation >>= further)
      ((expect text expected violation >>= more) track) := by
  cases heat : cursor.eat? expected with
  | some next =>
      have hpasses := Cursor.eat?_eq_some_iff.mp heat
      have hexpected : Agrees text depth (.ok ((), next))
          (expect text expected violation track) :=
        (eat_of_passes hstands hpasses).step fun after hafter => pure_agrees hafter ()
      rw [Cursor.eat_eq_ok_iff.mpr hpasses]
      exact hexpected.step fun after hafter => hmore next after hpasses hafter
  | none =>
      have hhead := Cursor.head?_ne_of_eat? heat
      have hexpected : Agrees text depth (.error (violation cursor.offset))
          (expect text expected violation track) := by
        rw [expect, bind_of_ok (eat_of_head_ne hstands hhead)]
        show Agrees text depth _ ((offset >>= fun place => violate (violation place)) track)
        rw [bind_of_ok (offset_eq hstands)]
        exact violate_agrees hstands _
      rw [Cursor.eat, heat]
      exact hexpected.stop more

/-! ## Names -/

/-- The cursor behind a character. -/
theorem passes_cons {offset : Nat} {c : Char} {rest : List Char} :
    Cursor.Passes ⟨offset, c :: rest⟩ [c] ⟨offset + c.utf8Size, rest⟩ :=
  ⟨rfl, rfl⟩

theorem skipSegment_agrees {rounds : Nat} (hstands : track.Stands text depth cursor)
    (hrounds : cursor.rest.length < rounds) :
    Agrees text depth (.ok ((), (cursor.span isSegmentChar).2))
      (skipSegment text rounds track) := by
  induction rounds generalizing cursor track with
  | zero => exact absurd hrounds (Nat.not_lt_zero _)
  | succ rounds ih =>
      rw [skipSegment, bind_of_ok (peek_eq hstands)]
      obtain ⟨offset, rest⟩ := cursor
      cases rest with
      | nil => exact pure_agrees hstands ()
      | cons c rest =>
          dsimp only [List.head?_cons]
          split_ifs with hchar
          · refine (bump_agrees hstands passes_cons).step fun after hafter => ?_
            have hmore := ih hafter (Nat.lt_of_succ_lt_succ hrounds)
            have hspan : (Cursor.span isSegmentChar ⟨offset, c :: rest⟩).2 =
                (Cursor.span isSegmentChar ⟨offset + c.utf8Size, rest⟩).2 := by
              simp only [Cursor.span, List.takeWhile_cons_of_pos hchar,
                List.dropWhile_cons_of_pos hchar, width, Nat.add_assoc]
            rw [hspan]
            exact hmore
          · have hspan : (Cursor.span isSegmentChar ⟨offset, c :: rest⟩).2 =
                ⟨offset, c :: rest⟩ := by
              simp [Cursor.span, hchar, width]
            rw [hspan]
            exact pure_agrees hstands ()

/-- A segment is passed as a whole if nothing that follows extends it. -/
theorem segment_of_starts {offset : Nat} {taken rest : List Char}
    (hstands : track.Stands text depth ⟨offset, taken ++ rest⟩)
    (hstarts : startsSegment taken = true) (htaken : ∀ c ∈ taken, isSegmentChar c = true)
    (hrest : ∀ c ∈ rest.head?, isSegmentChar c = false) :
    Agrees text depth (.ok (true, ⟨offset + width taken, rest⟩)) (segment text track) := by
  cases taken with
  | nil => exact nomatch hstarts
  | cons c taken =>
      have hlead : isSegmentLead c = true := hstarts
      rw [List.cons_append] at hstands
      rw [segment, bind_of_ok (peek_eq hstands)]
      dsimp only [List.head?_cons]
      rw [if_pos hlead]
      refine (bump_agrees hstands passes_cons).step fun after hafter => ?_
      have hskipped := skipSegment_agrees hafter hafter.length_rest_lt
      rw [Cursor.span_append (List.forall_mem_cons.mp htaken).2 hrest, Nat.add_assoc] at hskipped
      exact hskipped.step fun last hlast => pure_agrees hlast true

theorem segment_of_not_starts (hstands : track.Stands text depth cursor)
    (hstarts : startsSegment cursor.rest = false) : segment text track = .ok false track := by
  rw [segment, bind_of_ok (peek_eq hstands)]
  cases hrest : cursor.rest with
  | nil => rfl
  | cons c rest =>
      rw [hrest] at hstarts
      have hlead : isSegmentLead c = false := hstarts
      dsimp only [List.head?_cons]
      rw [if_neg (Bool.eq_false_iff.mp hlead)]
      rfl

/-- Where the last of some separators stands. -/
def lastSeparator (offset : Nat) (last : Option Nat) : List (Char × List Char) → Option Nat
  | [] => last
  | (separator, segment) :: more =>
    lastSeparator (offset + separator.utf8Size + width segment) (some offset) more

/-- Separators with the segments behind them, as they are spelled. -/
def spelled (parts : List (Char × List Char)) : List Char :=
  parts.flatMap fun part => part.1 :: part.2

theorem length_le_length_spelled (parts : List (Char × List Char)) :
    parts.length ≤ (spelled parts).length := by
  induction parts with
  | nil => exact Nat.le_refl 0
  | cons part parts ih =>
      rw [spelled, List.flatMap_cons, List.cons_append, List.length_cons, List.length_cons,
        List.length_append]
      exact Nat.succ_le_succ (ih.trans (Nat.le_add_left _ _))

theorem lastSeparator_concat (offset : Nat) (last : Option Nat) (init : List (Char × List Char))
    (part : Char × List Char) :
    lastSeparator offset last (init ++ [part]) = some (offset + width (spelled init)) := by
  induction init generalizing offset last with
  | nil => rfl
  | cons first init ih =>
      rw [List.cons_append, lastSeparator, ih, spelled, spelled, List.flatMap_cons,
        List.cons_append, width, width_append]
      simp only [Nat.add_assoc]

/-- Separators and segments, cut as the reader cuts them. -/
structure AreParts (parts : List (Char × List Char)) : Prop where
  separator : ∀ part ∈ parts, QualifiedName.isSeparator part.1 = true
  segment : ∀ part ∈ parts, ∀ c ∈ part.2, isSegmentChar c = true

theorem AreParts.of_cons {part : Char × List Char} {parts : List (Char × List Char)}
    (hparts : AreParts (part :: parts)) : AreParts parts where
  separator := (List.forall_mem_cons.mp hparts.separator).2
  segment := (List.forall_mem_cons.mp hparts.segment).2

/-- No segment goes on or starts where a separator stands or the name ends. -/
theorem AreParts.head {parts : List (Char × List Char)} {rest : List Char}
    (hparts : AreParts parts) (hrest : EndsName rest) :
    (∀ c ∈ (spelled parts ++ rest).head?, isSegmentChar c = false) ∧
      startsSegment (spelled parts ++ rest) = false := by
  cases parts with
  | nil =>
      refine ⟨fun c hc => ?_, hrest.startsSegment⟩
      have hnot := hrest c hc
      rw [isNameChar, Bool.or_eq_false_iff] at hnot
      exact hnot.1
  | cons part parts =>
      have hseparator := hparts.separator part List.mem_cons_self
      refine ⟨fun c hc => ?_, startsSegment_separator hseparator _⟩
      obtain rfl : part.1 = c := Option.some.inj hc
      by_contra hchar
      rw [isSeparator_of_isSegmentChar (Bool.eq_true_of_not_eq_false hchar)] at hseparator
      cases hseparator

/-- The separators are passed one by one, up to the first one that no segment follows. -/
theorem moreSegments_agrees {rounds offset : Nat} (last : Option Nat)
    {parts : List (Char × List Char)} {rest : List Char} (hparts : AreParts parts)
    (hrest : EndsName rest) (hrounds : parts.length < rounds)
    (hstands : track.Stands text depth ⟨offset, spelled parts ++ rest⟩) :
    Agrees text depth
      (match segmentFault? offset parts with
        | some place => .error (.nameCharMissing place)
        | none => .ok (lastSeparator offset last parts, ⟨offset + width (spelled parts), rest⟩))
      (moreSegments text rounds last track) := by
  induction parts generalizing rounds offset last track with
  | nil =>
      obtain ⟨rounds, rfl⟩ := Nat.exists_eq_add_one_of_ne_zero hrounds.ne'
      rw [moreSegments, bind_of_ok (peek_eq hstands)]
      cases rest with
      | nil => exact pure_agrees hstands last
      | cons c rest =>
          have hc : isNameChar c = false := hrest c rfl
          rw [isNameChar, Bool.or_eq_false_iff] at hc
          show Agrees text depth _ ((if QualifiedName.isSeparator c then _ else _ : Scan _) track)
          rw [if_neg (Bool.eq_false_iff.mp hc.2)]
          exact pure_agrees hstands last
  | cons part parts ih =>
      obtain ⟨separator, segment⟩ := part
      obtain ⟨rounds, rfl⟩ := Nat.exists_eq_add_one_of_ne_zero (Nat.ne_zero_of_lt hrounds)
      have hseparator : QualifiedName.isSeparator separator = true :=
        hparts.separator _ List.mem_cons_self
      have hsegment : ∀ c ∈ segment, isSegmentChar c = true := hparts.segment _ List.mem_cons_self
      obtain ⟨hends, hstarts⟩ := hparts.of_cons.head hrest
      have hwhole : spelled ((separator, segment) :: parts) ++ rest =
          separator :: (segment ++ (spelled parts ++ rest)) := by
        simp [spelled]
      rw [hwhole] at hstands
      rw [moreSegments, bind_of_ok (peek_eq hstands)]
      dsimp only [List.head?_cons]
      rw [if_pos hseparator, bind_of_ok (offset_eq hstands)]
      refine (bump_agrees hstands passes_cons).step fun after hafter => ?_
      rw [segmentFault?]
      split_ifs with hstartsSegment
      · have htaken := segment_of_starts hafter hstartsSegment hsegment hends
        refine htaken.step fun last hlast => ?_
        have hwidth : offset + width (spelled ((separator, segment) :: parts)) =
            offset + separator.utf8Size + width segment + width (spelled parts) := by
          rw [spelled, List.flatMap_cons, List.cons_append, width, width_append]
          simp only [Nat.add_assoc, spelled]
        rw [if_pos rfl, hwidth]
        exact ih (some offset) hparts.of_cons (Nat.lt_of_succ_lt_succ hrounds) hlast
      · have hnone := startsSegment_append (Bool.eq_false_of_not_eq_true hstartsSegment) hstarts
        rw [bind_of_ok (segment_of_not_starts hafter hnone), if_neg Bool.false_ne_true,
          bind_of_ok (offset_eq hafter)]
        exact violate_agrees hafter _

theorem slice_eq (hin : cursor.IsIn text) {taken : List Char} (hpasses : cursor.Passes taken next)
    (track : Track) : slice text cursor.offset next.offset track = .ok taken track := by
  rw [slice, hin.slice? hpasses]
  rfl

theorem utf8Size_of_isSeparator {c : Char} (hseparator : QualifiedName.isSeparator c = true) :
    c.utf8Size = 1 := by
  rcases isSeparator_iff.mp hseparator with rfl | rfl
  · rfl
  · rfl

/-- A name is shown as the reader's name is rendered. -/
theorem shownFrom_agrees (namespaces : NameSet) {first : List Char}
    {parts : List (Char × List Char)} (hparts : AreParts parts) (hin : cursor.IsIn text)
    (hpasses : cursor.Passes (first ++ spelled parts) next)
    (hstands : track.Stands text depth next) :
    Agrees text depth (.ok (QualifiedName.rendering namespaces ⟨first, parts⟩, next))
      (shownFrom namespaces text cursor.offset
        (lastSeparator (cursor.offset + width first) none parts) track) := by
  rcases List.eq_nil_or_concat parts with rfl | ⟨init, ⟨separator, last⟩, rfl⟩
  · rw [lastSeparator, shownFrom, bind_of_ok (offset_eq hstands), slice_eq hin hpasses]
    exact pure_agrees hstands _
  · rw [List.concat_eq_append] at hparts hpasses ⊢
    have hseparator := hparts.separator (separator, last) (by simp)
    have hwhole : first ++ spelled (init ++ [(separator, last)]) =
        QualifiedName.spelling ⟨first, init⟩ ++ ([separator] ++ last) :=
      spelling_concat ⟨first, init⟩ separator last
    rw [hwhole] at hpasses
    obtain ⟨middle, hqualifier, hpassesLast⟩ := hpasses.split
    obtain ⟨behind, hmark, hlast⟩ := hpassesLast.split
    have hmiddle : cursor.offset + width first + width (spelled init) = middle.offset := by
      rw [hqualifier.offset, QualifiedName.spelling, width_append, Nat.add_assoc]
      rfl
    have hbehind : middle.offset + 1 = behind.offset := by
      rw [hmark.offset, ← utf8Size_of_isSeparator hseparator]
      rfl
    have hlastIn := (hin.passes hqualifier).passes hmark
    rw [lastSeparator_concat, shownFrom, rendering_concat ⟨first, init⟩, hmiddle, hbehind,
      bind_of_ok (slice_eq hin hqualifier track)]
    split_ifs with hknown
    · rw [bind_of_ok (offset_eq hstands), slice_eq hlastIn hlast]
      exact pure_agrees hstands _
    · rw [bind_of_ok (offset_eq hstands), slice_eq hin (hqualifier.trans (hmark.trans hlast))]
      exact pure_agrees hstands _

theorem name_agrees (namespaces : NameSet) (hstands : track.Stands text depth cursor) :
    Agrees text depth
      ((fun read => (read.1.elim [] (QualifiedName.rendering namespaces), read.2)) <$>
        readName cursor)
      (name namespaces text track) := by
  rw [name, bind_of_ok (offset_eq hstands), readName]
  split_ifs with hstarts
  · have hpasses := cursor.passes_span isNameChar
    have hends : EndsName (cursor.span isNameChar).2.rest := Cursor.head_span
    have hchars : ∀ c ∈ (cursor.span isNameChar).1, isNameChar c = true := Cursor.all_span
    obtain ⟨hfirst, hmore⟩ := chars_ofText hchars
    have hlead := startsSegment_ofText (startsSegment_span hstarts)
    have hspelling := QualifiedName.spelling_ofText (cursor.span isNameChar).1
    generalize cursor.span isNameChar = taken at *
    obtain ⟨run, behind⟩ := taken
    dsimp only at *
    generalize QualifiedName.ofText run = found at *
    obtain ⟨first, parts⟩ := found
    have hparts : AreParts parts :=
      ⟨fun part hpart => (hmore part hpart).1, fun part hpart => (hmore part hpart).2⟩
    obtain rfl : first ++ spelled parts = run := hspelling
    -- the first segment is passed, then the others
    have hplace : track.Stands text depth
        ⟨cursor.offset, first ++ (spelled parts ++ behind.rest)⟩ := by
      rw [← List.append_assoc, ← hpasses.rest]
      exact hstands
    refine (segment_of_starts hplace hlead hfirst (hparts.head hends).1).step fun after hafter => ?_
    have hrounds : parts.length < rounds text := by
      have hleft := hafter.length_rest_lt
      have hshort := length_le_length_spelled parts
      rw [List.length_append] at hleft
      omega
    have hmoved := moreSegments_agrees none hparts hends hrounds hafter
    rw [if_pos rfl]
    cases hfault : segmentFault? (cursor.offset + width first) parts with
    | some place =>
        rw [hfault] at hmoved
        exact hmoved.stop _
    | none =>
        rw [hfault] at hmoved
        refine hmoved.step fun last hlast => ?_
        refine shownFrom_agrees namespaces hparts hstands.isIn hpasses ?_
        rwa [Nat.add_assoc, ← width_append, ← hpasses.offset] at hlast
  · rw [bind_of_ok (segment_of_not_starts hstands (Bool.eq_false_of_not_eq_true hstarts))]
    exact pure_agrees hstands _

/-! ## Array brackets -/

/-- Behind an opening bracket the closing one has to come, and then further pairs may. -/
theorem readArrays_opening (offset : Nat) (rest : List Char) :
    readArrays offset ('[' :: rest) =
      Cursor.eat ']' .closingBracketMissing ⟨offset + '['.utf8Size, rest⟩ >>= fun next =>
        (fun read => (read.1 + 1, read.2)) <$> readArrays next.offset next.rest := by
  cases rest with
  | nil => rfl
  | cons c rest =>
      by_cases hclosing : c = ']'
      · subst hclosing
        rw [readArrays_pair, Cursor.eat_cons]
        rfl
      · have hnone : Cursor.eat? ']' ⟨offset + '['.utf8Size, c :: rest⟩ = none := if_neg hclosing
        have hnext : (c :: rest).head? ≠ some ']' := fun hhead => hclosing (Option.some.inj hhead)
        rw [Cursor.eat, hnone]
        exact readArrays_unclosed 0 hnext offset

theorem skipBrackets_agrees {rounds : Nat} (hstands : track.Stands text depth cursor)
    (hrounds : cursor.rest.length < rounds) :
    Agrees text depth ((fun read => ((), read.2)) <$> readArrays cursor.offset cursor.rest)
      (skipBrackets text rounds track) := by
  induction rounds generalizing cursor track with
  | zero => exact absurd hrounds (Nat.not_lt_zero _)
  | succ rounds ih =>
      obtain ⟨offset, rest⟩ := cursor
      rw [skipBrackets]
      by_cases hhead : rest.head? = some '['
      · obtain ⟨rest, rfl⟩ := List.head?_eq_some_iff.mp hhead
        refine (eat_of_passes hstands passes_cons).step fun after hafter => ?_
        rw [if_pos rfl, readArrays_opening, map_bind]
        refine expect_agrees hafter fun next last hpasses hlast => ?_
        have hshorter := hpasses.length_le
        rw [List.length_cons] at hrounds
        have hmore := ih hlast (by simp only [List.length_singleton] at hshorter; omega)
        rw [Functor.map_map]
        exact hmore
      · rw [bind_of_ok (eat_of_head_ne hstands hhead), if_neg Bool.false_ne_true,
          readArrays_of_head_ne hhead]
        exact pure_agrees hstands ()

theorem arrays_agrees (hstands : track.Stands text depth cursor) :
    Agrees text depth
      ((fun read => (brackets read.1, read.2)) <$> readArrays cursor.offset cursor.rest)
      (arrays text track) := by
  rw [arrays, bind_of_ok (offset_eq hstands), bind_of_ok (peek_eq hstands)]
  split_ifs with hhead
  · have hskipped := skipBrackets_agrees hstands hstands.length_rest_lt
    cases hread : readArrays cursor.offset cursor.rest with
    | error violation =>
        rw [hread] at hskipped
        exact hskipped.stop _
    | ok read =>
        obtain ⟨count, next⟩ := read
        rw [hread] at hskipped
        refine hskipped.step fun after hafter => ?_
        rw [bind_of_ok (offset_eq hafter), slice_eq hstands.isIn (readArrays_sound hread)]
        exact pure_agrees hafter _
  · rw [readArrays_of_head_ne hhead]
    exact pure_agrees hstands _

/-! ## Arities -/

theorem saturated_step (arity digit : Nat) :
    saturated (saturated (arity * 10) + digit) = min maxArity (arity * 10 + digit) := by
  rw [saturated, saturated]
  omega

theorem moreDigits_agrees {rounds : Nat} (arity : Nat) (hstands : track.Stands text depth cursor)
    (hrounds : cursor.rest.length < rounds) :
    Agrees text depth
      (.ok ((cursor.span Char.isDigit).1.foldl
        (fun arity digit => min maxArity (arity * 10 + (digit.toNat - '0'.toNat))) arity,
          (cursor.span Char.isDigit).2))
      (moreDigits text rounds arity track) := by
  induction rounds generalizing cursor track arity with
  | zero => exact absurd hrounds (Nat.not_lt_zero _)
  | succ rounds ih =>
      rw [moreDigits, bind_of_ok (peek_eq hstands)]
      obtain ⟨offset, rest⟩ := cursor
      cases rest with
      | nil => exact pure_agrees hstands arity
      | cons c rest =>
          dsimp only [List.head?_cons, digit?]
          split_ifs with hdigit
          · dsimp only
            refine (advance_agrees hstands passes_cons).step fun after hafter => ?_
            have hmore := ih (min maxArity (arity * 10 + (c.toNat - '0'.toNat))) hafter
              (Nat.lt_of_succ_lt_succ hrounds)
            rw [saturated_step]
            simp only [Cursor.span, List.takeWhile_cons_of_pos hdigit,
              List.dropWhile_cons_of_pos hdigit, width, ← Nat.add_assoc, List.foldl_cons]
            exact hmore
          · have hspan : Cursor.span Char.isDigit ⟨offset, c :: rest⟩ =
                ([], ⟨offset, c :: rest⟩) := by
              simp [Cursor.span, hdigit, width]
            rw [hspan]
            exact pure_agrees hstands arity

/-- An arity starts with its first digit, which is no zero. -/
theorem readArity_cons {offset digit : Nat} {c : Char} {rest : List Char}
    (hdigit : c.isDigit = true) (hvalue : c.toNat - '0'.toNat = digit + 1) :
    readArity ⟨offset, c :: rest⟩ =
      .ok ((rest.takeWhile Char.isDigit).foldl
        (fun arity digit => min maxArity (arity * 10 + (digit.toNat - '0'.toNat))) (digit + 1),
          (Cursor.span Char.isDigit ⟨offset + c.utf8Size, rest⟩).2) := by
  have hzero : c ≠ '0' := by
    rintro rfl
    exact nomatch hvalue
  have hsmall : min maxArity (0 * 10 + (c.toNat - '0'.toNat)) = digit + 1 := by
    have hlast := (Char.isDigit_iff_toNat.mp hdigit).2
    have hmax : 9 ≤ maxArity := by decide
    have hzeroCode : '0'.toNat = 48 := rfl
    have hnineCode : '9'.toNat = 57 := rfl
    omega
  rw [readArity, Cursor.span]
  dsimp only
  rw [List.takeWhile_cons_of_pos hdigit, List.dropWhile_cons_of_pos hdigit]
  split
  · next heq => exact absurd heq (List.cons_ne_nil _ _)
  · next heq => exact absurd (List.cons.inj heq).1 hzero
  · rw [arityOf, List.foldl_cons, hsmall, width, ← Nat.add_assoc]
    rfl

theorem arity_agrees (hstands : track.Stands text depth cursor) :
    Agrees text depth (readArity cursor) (arity text track) := by
  have hrefused (hhead : ∀ c ∈ cursor.rest.head?, c.isDigit = true → c = '0') :
      Agrees text depth (readArity cursor)
        ((offset >>= fun place => violate (.nonZeroDigitMissing place)) track) := by
    rw [readArity_eq_error_iff.mpr ⟨rfl, hhead⟩, bind_of_ok (offset_eq hstands)]
    exact violate_agrees hstands _
  obtain ⟨offset, rest⟩ := cursor
  rw [arity, bind_of_ok (peek_eq hstands)]
  cases rest with
  | nil => exact hrefused nofun
  | cons c rest =>
      dsimp only [List.head?_cons, digit?]
      split_ifs with hdigit
      · cases hvalue : c.toNat - '0'.toNat with
        | zero =>
            refine hrefused fun d hd _ => ?_
            obtain rfl : c = d := Option.some.inj hd
            have hfirst := (Char.isDigit_iff_toNat.mp hdigit).1
            exact Char.toNat_inj.mp (Nat.le_antisymm (Nat.sub_eq_zero_iff_le.mp hvalue) hfirst)
        | succ digit =>
            refine (advance_agrees hstands passes_cons).step fun after hafter => ?_
            rw [readArity_cons hdigit hvalue]
            exact moreDigits_agrees (digit + 1) hafter hafter.length_rest_lt
      · refine hrefused fun d hd hnot => ?_
        obtain rfl : c = d := Option.some.inj hd
        exact absurd hnot hdigit

end Scan

end TypeName

end ActivityCatalogue
