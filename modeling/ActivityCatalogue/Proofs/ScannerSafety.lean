import ActivityCatalogue.Proofs.NamespaceChoice
import ActivityCatalogue.Proofs.ScannerParts
import ActivityCatalogue.Proofs.ViablePrefix

/-!
# Where the scanner goes

The scanner shortens a text as the reader does, and from its start to its end it is safe
(`Scan.whole_agrees`): it cuts the text at boundaries only, it never goes back, and it nests no
deeper than `maxNesting`.

The arguments are what makes it end.  Their announced number is as large as the text likes to
make it, up to the greatest arity.  But an argument that is taken moves the scanner
(`offset_lt_of_shortenArgument`), so that a loop over arguments has come to its end when as many
rounds are over as bytes were left (`Scan.arguments_congr`).
-/

namespace ActivityCatalogue

namespace TypeName

variable {α β : Type} {namespaces : NameSet} {text : List Char} {depth : Nat}
  {track after : Track} {cursor next : Cursor}

/-! ## Arguments one level further in -/

/-- From the place of a cursor, the scan ends as the reader does. -/
def Mirrors (text : List Char) (depth : Nat) (scan : Scan α)
    (reader : Cursor → Except Violation (α × Cursor)) : Prop :=
  ∀ ⦃cursor track⦄, Track.Stands text depth cursor track →
    Agrees text depth (reader cursor) (scan track)

/-- The reader of arguments where so many levels are left. -/
def shortenArgument (namespaces : NameSet) : (levels : Nat) → TextReader
  | 0 => fun cursor => .error (.tooDeep cursor.offset)
  | levels + 1 => shortenArgumentWith (shortenType namespaces levels)

theorem shortenType_eq_with (namespaces : NameSet) (levels : Nat) :
    shortenType namespaces levels =
      shortenTypeWith namespaces (shortenArgument namespaces levels) := by
  cases levels with
  | zero => rfl
  | succ levels => rfl

namespace Scan

theorem arguments_mirrors {argument : Scan (List Char)} {shortener : TextReader}
    (hargument : Mirrors text depth argument shortener) (further : Nat) :
    Mirrors text depth (arguments text argument further) (shortenArguments shortener further) := by
  induction further with
  | zero =>
      intro cursor track hstands
      exact (hargument hstands).bind fun shown behind after _ hafter => pure_agrees hafter [shown]
  | succ further ih =>
      intro cursor track hstands
      refine (hargument hstands).bind fun shown behind after _ hafter => ?_
      refine expect_agrees hafter fun opened last _ hlast => ?_
      exact (ih hlast).bind fun others _ _ _ hend => pure_agrees hend (shown :: others)

theorem template_mirrors {argument : Scan (List Char)} {shortener : TextReader}
    (hargument : Mirrors text depth argument shortener) :
    Mirrors text depth (template text argument) (shortenTemplate shortener) := by
  intro cursor track hstands
  rw [template, shortenTemplate]
  cases hmark : cursor.eat? (Char.ofNat 0x60) with
  | none =>
      rw [bind_of_ok (eat_of_head_ne hstands (Cursor.head?_ne_of_eat? hmark))]
      exact pure_agrees hstands []
  | some behindMark =>
      have hpasses := Cursor.eat?_eq_some_iff.mp hmark
      refine (eat_of_passes hstands hpasses).step fun after hafter => ?_
      rw [if_pos rfl]
      refine (arity_agrees hafter).bind fun announced behindArity counted _ hcounted => ?_
      refine expect_agrees hcounted fun opened entered _ hentered => ?_
      have harguments := arguments_mirrors hargument (announced - 1) hentered
      refine harguments.bind fun shown last left _ hleft => ?_
      exact expect_agrees hleft fun _ _ _ hend => pure_agrees hend (bracketed shown)

theorem typeWith_mirrors {argument : Scan (List Char)} {shortener : TextReader}
    (hargument : Mirrors text depth argument shortener) :
    Mirrors text depth (typeWith namespaces text argument)
      (shortenTypeWith namespaces shortener) := by
  intro cursor track hstands
  have hparts : shortenTypeWith namespaces shortener cursor =
      ((fun read => (read.1.elim [] (QualifiedName.rendering namespaces), read.2)) <$>
        readName cursor) >>= fun name => shortenTemplate shortener name.2 >>= fun template =>
          ((fun read => (brackets read.1, read.2)) <$>
            readArrays template.2.offset template.2.rest) >>= fun arrays =>
              .ok (name.1 ++ template.1 ++ arrays.1, arrays.2) := by
    simp only [bind_map_left]
    rfl
  rw [hparts]
  refine (name_agrees namespaces hstands).bind fun name behindName after _ hafter => ?_
  refine (template_mirrors hargument hafter).bind fun template behind last _ hlast => ?_
  exact (arrays_agrees hlast).bind fun arrays _ _ _ hend => pure_agrees hend _

/-- One level further in the nesting is one more, and then again what it was. -/
theorem nested_agrees {scan : Scan α} {result : Except Violation (α × Cursor)}
    (hdepth : depth < maxNesting) (hstands : track.Stands text depth cursor)
    (hscan : ∀ inner, inner.Stands text (depth + 1) cursor →
      Agrees text (depth + 1) result (scan inner)) :
    Agrees text depth result (nested scan track) := by
  have hboundary := hstands.safe.boundary track.now List.mem_cons_self
  have hentered := hscan (track.moveTo { track.now with depth := track.now.depth + 1 })
    { safe := hstands.safe.moveTo hboundary (by rw [hstands.depth]; exact hdepth) (Nat.le_refl _)
      offset := hstands.offset
      depth := congrArg (· + 1) hstands.depth
      isIn := hstands.isIn }
  rw [nested]
  cases hended : scan (track.moveTo { track.now with depth := track.now.depth + 1 }) with
  | ok value inner =>
      rw [hended] at hentered
      cases hentered with
      | ok hinner =>
          have hleft : inner.now.depth - 1 = depth := by rw [hinner.depth, Nat.add_sub_cancel]
          refine .ok ⟨hinner.safe.moveTo ?_ ?_ (Nat.le_refl _), hinner.offset, hleft, hinner.isIn⟩
          · exact hinner.safe.boundary inner.now List.mem_cons_self
          · exact hleft.trans_le hdepth.le
  | error stop inner =>
      rw [hended] at hentered
      cases hentered with
      | violated hsafe hinner =>
          have hleft : inner.now.depth - 1 = depth := by rw [hinner, Nat.add_sub_cancel]
          refine .violated (hsafe.moveTo ?_ ?_ (Nat.le_refl _)) hleft
          · exact hsafe.boundary inner.now List.mem_cons_self
          · exact hleft.trans_le hdepth.le

theorem depth_eq (hstands : track.Stands text depth cursor) :
    Scan.depth track = .ok depth track := by
  rw [← hstands.depth]
  rfl

theorem argumentWith_mirrors {type : Scan (List Char)} {shortener : TextReader}
    (hdepth : depth < maxNesting) (htype : Mirrors text (depth + 1) type shortener) :
    Mirrors text depth (argumentWith type) (shortenArgumentWith shortener) := by
  intro cursor track hstands
  rw [argumentWith, bind_of_ok (offset_eq hstands), bind_of_ok (depth_eq hstands),
    if_neg (Nat.not_le.mpr hdepth)]
  refine (nested_agrees hdepth hstands fun inner hinner => htype hinner).bind
    fun shown next after _ hafter => ?_
  dsimp only
  split_ifs
  · exact violate_agrees hafter _
  · exact pure_agrees hafter shown

/-- At the deepest nesting an argument is refused where it would start. -/
theorem argumentWith_tooDeep (type : Scan (List Char)) :
    Mirrors text maxNesting (argumentWith type) fun cursor => .error (.tooDeep cursor.offset) := by
  intro cursor track hstands
  rw [argumentWith, bind_of_ok (offset_eq hstands), bind_of_ok (depth_eq hstands),
    if_pos (Nat.le_refl _)]
  exact violate_agrees hstands _

/-- Arguments need no more calls than there are levels left. -/
theorem argument_mirrors {levels calls : Nat} (hlevels : depth + levels = maxNesting)
    (hcalls : levels ≤ calls) :
    Mirrors text depth (argument namespaces text calls) (shortenArgument namespaces levels) := by
  rw [argument]
  induction levels generalizing depth calls with
  | zero =>
      obtain rfl : depth = maxNesting := hlevels
      exact argumentWith_tooDeep _
  | succ levels ih =>
      obtain ⟨calls, rfl⟩ := Nat.exists_eq_add_one_of_ne_zero (Nat.ne_zero_of_lt hcalls)
      refine argumentWith_mirrors (by omega) ?_
      rw [shortenType_eq_with]
      exact typeWith_mirrors (ih (by omega) (Nat.le_of_succ_le_succ hcalls))

end Scan

/-! ## An argument that is taken moves the scanner -/

mutual

/-- What is read is got past, and a type is empty if that is nothing. -/
theorem Reading.passes {type : TypeName} {start next : Cursor} :
    Reading type start next →
      ∃ taken, start.Passes taken next ∧ (taken = [] → type.isEmpty = true)
  | @Reading.type name arguments arrays _ _ _ _ hname htemplate harrays => by
      obtain ⟨nameText, hnamePasses, hderives⟩ := readName_sound NameMap.empty hname
      obtain ⟨templateText, htemplatePasses, hplain⟩ := TemplateReading.passes htemplate
      refine ⟨_, (hnamePasses.trans htemplatePasses).trans (readArrays_sound harrays), ?_⟩
      intro hnothing
      rw [List.append_eq_nil_iff, List.append_eq_nil_iff, brackets_eq_nil_iff] at hnothing
      obtain ⟨⟨hnoName, hnoTemplate⟩, rfl⟩ := hnothing
      have hnone := hderives.isNone_iff.mpr hnoName
      rw [isEmpty, hnone, hplain hnoTemplate]
      rfl
termination_by structural reading => reading

theorem TemplateReading.passes {arguments : List TypeName} {start next : Cursor} :
    TemplateReading arguments start next →
      ∃ taken, start.Passes taken next ∧ (taken = [] → arguments = [])
  | .absent => ⟨[], Cursor.passes_nil _, fun _ => rfl⟩
  | .present hmark harity hopening harguments hclosing => by
      obtain ⟨digits, count, hdigits, -, -⟩ := readArity_sound harity
      obtain ⟨taken, htaken⟩ := ArgumentsReading.passes harguments
      have hall := hmark.trans (hdigits.trans (hopening.trans (htaken.trans hclosing)))
      exact ⟨_, hall, nofun⟩
termination_by structural reading => reading

theorem ArgumentsReading.passes {types : List TypeName} {start next : Cursor} :
    ArgumentsReading types start next → ∃ taken, start.Passes taken next
  | .last htype _ => by
      obtain ⟨taken, htaken, -⟩ := Reading.passes htype
      exact ⟨taken, htaken⟩
  | .more htype _ hcomma hrest => by
      obtain ⟨taken, htaken, -⟩ := Reading.passes htype
      obtain ⟨others, hothers⟩ := ArgumentsReading.passes hrest
      exact ⟨_, htaken.trans (hcomma.trans hothers)⟩
termination_by structural reading => reading

end

theorem width_pos {taken : List Char} (hnonempty : taken ≠ []) : 0 < width taken :=
  (List.length_pos_of_ne_nil hnonempty).trans_le (length_le_width taken)

/-- An argument takes a byte at least. -/
theorem offset_lt_of_shortenArgument {levels : Nat} {shown : List Char}
    (hread : shortenArgument namespaces levels cursor = .ok (shown, next)) :
    cursor.offset < next.offset := by
  cases levels with
  | zero => exact nomatch hread
  | succ levels =>
      obtain ⟨⟨found, behind⟩, hfound, hread⟩ := bind_eq_ok_iff.mp hread
      dsimp only at hread
      split_ifs at hread with hempty
      cases hread
      rw [shortenType_eq] at hfound
      obtain ⟨argument, hargument⟩ := exists_readType_eq levels
      cases htype : readType levels cursor with
      | error violation =>
          rw [htype] at hfound
          exact nomatch hfound
      | ok read =>
          rw [htype] at hfound
          obtain ⟨type, last⟩ := read
          cases hfound
          obtain ⟨taken, hpasses, hnothing⟩ := (readType_reading levels _ _ _ htype).passes
          rw [hargument] at htype
          have hnonempty : taken ≠ [] := by
            intro hnil
            rw [isEmpty_rendering htype, hnothing hnil] at hempty
            exact hempty rfl
          have hmoved := width_pos hnonempty
          rw [hpasses.offset]
          omega

/-- The second track has come further than the first one, and not deeper. -/
structure Track.Advances (text : List Char) (track after : Track) : Prop where
  safe : after.IsSafe text
  depth : after.now.depth = track.now.depth
  moved : track.now.offset < after.now.offset

theorem Track.Advances.trans {middle : Track} (hfirst : track.Advances text middle)
    (hsecond : middle.Advances text after) : track.Advances text after where
  safe := hsecond.safe
  depth := hsecond.depth.trans hfirst.depth
  moved := hfirst.moved.trans hsecond.moved

/-- How a scan ends that has to get past something: it advances, or it is a violation, and then
the track is still safe and the nesting is what it was. -/
inductive EndsOrAdvances (text : List Char) (track : Track) : EStateM.Result Stop Track α → Prop
  | advanced {value : α} {after : Track} (hadvances : track.Advances text after) :
      EndsOrAdvances text track (.ok value after)
  | violated {violation : Violation} {after : Track} (hsafe : after.IsSafe text)
      (hdepth : after.now.depth = track.now.depth) :
      EndsOrAdvances text track (.error (.violated violation) after)

theorem EndsOrAdvances.bind {scan : Scan α} {more : α → Scan β}
    (hscan : EndsOrAdvances text track (scan track))
    (hmore : ∀ value after, track.Advances text after →
      EndsOrAdvances text track (more value after)) :
    EndsOrAdvances text track ((scan >>= more) track) := by
  cases hresult : scan track with
  | ok value after =>
      rw [hresult] at hscan
      cases hscan with
      | advanced hadvances =>
          rw [Scan.bind_of_ok hresult]
          exact hmore value after hadvances
  | error stop after =>
      rw [hresult] at hscan
      cases hscan with
      | violated hsafe hdepth =>
          rw [Scan.bind_of_error hresult]
          exact .violated hsafe hdepth

/-- What advances from further on has advanced from here. -/
theorem EndsOrAdvances.behind {middle : Track} {result : EStateM.Result Stop Track α}
    (hends : EndsOrAdvances text middle result) (hfirst : track.Advances text middle) :
    EndsOrAdvances text track result := by
  cases hends with
  | advanced hadvances => exact .advanced (hfirst.trans hadvances)
  | violated hsafe hdepth => exact .violated hsafe (hdepth.trans hfirst.depth)

theorem EndsOrAdvances.advances {result : EStateM.Result Stop Track α} {value : α}
    (hends : EndsOrAdvances text track result) (hok : result = .ok value after) :
    track.Advances text after := by
  subst hok
  cases hends with
  | advanced hadvances => exact hadvances

/-- A scan that agrees with a reader advances if the reader does. -/
theorem Agrees.endsOrAdvances {read : Except Violation (α × Cursor)}
    {result : EStateM.Result Stop Track α} (hagrees : Agrees text depth read result)
    (hstands : track.Stands text depth cursor)
    (hmoved : ∀ value next, read = .ok (value, next) → cursor.offset < next.offset) :
    EndsOrAdvances text track result := by
  cases hagrees with
  | ok hafter =>
      refine .advanced ⟨hafter.safe, hafter.depth.trans hstands.depth.symm, ?_⟩
      rw [hstands.offset, hafter.offset]
      exact hmoved _ _ rfl
  | violated hafter hdepth => exact .violated hafter (hdepth.trans hstands.depth.symm)

/-- Every argument does, as long as calls are left for the levels that are left. -/
theorem Track.IsSafe.argument_advances (hsafe : track.IsSafe text) {calls : Nat}
    (hcalls : maxNesting ≤ track.now.depth + calls) :
    EndsOrAdvances text track (Scan.argument namespaces text calls track) := by
  obtain ⟨cursor, hstands⟩ := hsafe.exists_stands
  have hdepth := hsafe.depth track.now List.mem_cons_self
  have hagrees : Agrees text track.now.depth
      (shortenArgument namespaces (maxNesting - track.now.depth) cursor)
      (Scan.argument namespaces text calls track) :=
    Scan.argument_mirrors (Nat.add_sub_of_le hdepth) (by omega) hstands
  exact hagrees.endsOrAdvances hstands fun _ _ => offset_lt_of_shortenArgument

/-! ## The loop over the arguments -/

/-- The bytes that are left. -/
def Track.left (text : List Char) (track : Track) : Nat := width text - track.now.offset

theorem IsBoundary.le_width {offset : Nat} (hboundary : IsBoundary text offset) :
    offset ≤ width text := by
  obtain ⟨before, rest, rfl, rfl⟩ := hboundary
  rw [width_append]
  exact Nat.le_add_right _ _

/-- Who has come further has less left, and had something left before. -/
theorem Track.Advances.left_lt (hadvances : track.Advances text after) :
    after.left text < track.left text := by
  have hmoved := hadvances.moved
  have hinside := (hadvances.safe.boundary after.now List.mem_cons_self).le_width
  rw [Track.left, Track.left]
  omega

namespace Scan

theorem bind_congr_of_ok {scan : Scan α} {next other : α → Scan β}
    (hagree : ∀ value after, scan track = .ok value after → next value after = other value after) :
    (scan >>= next) track = (scan >>= other) track := by
  cases hscan : scan track with
  | ok value after =>
      rw [bind_of_ok hscan, bind_of_ok hscan]
      exact hagree value after hscan
  | error stop after => rw [bind_of_error hscan, bind_of_error hscan]

theorem bind_eq_of_eq {scan other : Scan α} (heq : scan track = other track)
    (next : α → Scan β) : (scan >>= next) track = (other >>= next) track := by
  show EStateM.bind scan next track = EStateM.bind other next track
  rw [EStateM.bind, EStateM.bind, heq]

theorem exists_of_bind_ok {scan : Scan α} {next : α → Scan β} {value : β}
    (hok : (scan >>= next) track = .ok value after) :
    ∃ first middle, scan track = .ok first middle ∧ next first middle = .ok value after := by
  cases hscan : scan track with
  | ok first middle =>
      rw [bind_of_ok hscan] at hok
      exact ⟨first, middle, rfl, hok⟩
  | error stop middle =>
      rw [bind_of_error hscan] at hok
      exact nomatch hok

theorem expect_advances (hsafe : track.IsSafe text) (expected : Char)
    (violation : Nat → Violation) :
    EndsOrAdvances text track (expect text expected violation track) := by
  obtain ⟨cursor, hstands⟩ := hsafe.exists_stands
  have hagrees : Agrees text track.now.depth
      (cursor.eat expected violation >>= fun next => .ok ((), next))
      ((expect text expected violation >>= pure) track) :=
    expect_agrees hstands fun next after _ hafter => pure_agrees hafter ()
  rw [bind_pure] at hagrees
  refine hagrees.endsOrAdvances hstands fun _ next hread => ?_
  obtain ⟨_, heat, hread⟩ := bind_eq_ok_iff.mp hread
  cases hread
  rw [(Cursor.eat_eq_ok_iff.mp heat).offset]
  exact Nat.lt_add_of_pos_right (width_pos (List.cons_ne_nil _ _))

/-- A number is announced as it is, up to the greatest arity. -/
theorem exists_arity {digits behind : List Char} {count : Nat} (hsafe : track.IsSafe text)
    (harity : IsArity digits count) (hbehind : ∀ c ∈ behind.head?, c.isDigit = false)
    (hrest : rest text track = .ok (digits ++ behind) track) :
    ∃ after, track.Advances text after ∧ after.now.offset = track.now.offset + width digits ∧
      arity text track = .ok (min maxArity count) after := by
  obtain ⟨cursor, hstands⟩ := hsafe.exists_stands
  have hread : readArity cursor =
      .ok (min maxArity count, ⟨cursor.offset + width digits, behind⟩) := by
    obtain ⟨offset, left⟩ := cursor
    rw [rest_eq hstands] at hrest
    obtain rfl : left = digits ++ behind := (EStateM.Result.ok.inj hrest).1
    exact readArity_complete harity hbehind offset
  have hagrees := arity_agrees hstands
  rw [hread] at hagrees
  generalize arity text track = ended at hagrees ⊢
  cases hagrees with
  | @ok _ _ after hafter =>
      have hoffset : after.now.offset = track.now.offset + width digits := by
        rw [hafter.offset, hstands.offset]
      refine ⟨after, ⟨hafter.safe, hafter.depth, ?_⟩, hoffset, rfl⟩
      rw [hoffset]
      exact Nat.lt_add_of_pos_right (width_pos harity.nonempty)

theorem arguments_of_error {argument : Scan (List Char)} {stop : Stop}
    (hargument : argument track = .error stop after) (further : Nat) :
    arguments text argument further track = .error stop after := by
  cases further with
  | zero => exact bind_of_error hargument _
  | succ further => exact bind_of_error hargument _

section Loop

variable {argument : Scan (List Char)}
  (hargument : ∀ track : Track, track.IsSafe text → track.now.depth = depth →
    EndsOrAdvances text track (argument track))

include hargument

/-- However many arguments are announced, the loop advances if every argument does. -/
theorem arguments_advances (further : Nat) (hsafe : track.IsSafe text)
    (hdepth : track.now.depth = depth) :
    EndsOrAdvances text track (arguments text argument further track) := by
  induction further generalizing track with
  | zero => exact (hargument track hsafe hdepth).bind fun _ _ htaken => .advanced htaken
  | succ further ih =>
      refine (hargument track hsafe hdepth).bind fun shown middle htaken => .behind ?_ htaken
      refine (expect_advances htaken.safe _ _).bind fun _ opened hpassed => .behind ?_ hpassed
      have hothers := ih hpassed.safe ((htaken.trans hpassed).depth.trans hdepth)
      exact hothers.bind fun _ _ hlast => .advanced hlast

/-- As soon as the announced number is no less than the bytes that are left, it does not matter. -/
theorem arguments_congr {first second : Nat} (hsafe : track.IsSafe text)
    (hdepth : track.now.depth = depth) (hfirst : track.left text ≤ first)
    (hsecond : track.left text ≤ second) :
    arguments text argument first track = arguments text argument second track := by
  -- the induction is on the bytes that are left, since every round takes some of them
  induction hleft : track.left text using Nat.strong_induction_on
    generalizing first second track with
  | _ left ih =>
      cases hscan : argument track with
      | error stop middle => rw [arguments_of_error hscan, arguments_of_error hscan]
      | ok shown middle =>
          have htaken := (hargument track hsafe hdepth).advances hscan
          have hless := htaken.left_lt
          obtain ⟨first, rfl⟩ := Nat.exists_eq_add_one_of_ne_zero (by omega : first ≠ 0)
          obtain ⟨second, rfl⟩ := Nat.exists_eq_add_one_of_ne_zero (by omega : second ≠ 0)
          rw [arguments, arguments, bind_of_ok hscan, bind_of_ok hscan]
          refine bind_congr_of_ok fun _ opened hcomma => bind_eq_of_eq ?_ _
          have hpassed := (expect_advances htaken.safe _ _).advances hcomma
          have hstillLess := hpassed.left_lt
          exact ih (opened.left text) (by omega) hpassed.safe
            ((htaken.trans hpassed).depth.trans hdepth) (by omega) (by omega) rfl

/-- The loop is the same with no more rounds than there are bytes left. -/
theorem arguments_eq_min (further : Nat) (hsafe : track.IsSafe text)
    (hdepth : track.now.depth = depth) :
    arguments text argument further track =
      arguments text argument (min further (track.left text)) track := by
  rcases Nat.le_total further (track.left text) with hfew | hmany
  · rw [Nat.min_eq_left hfew]
  · rw [Nat.min_eq_right hmany]
    exact arguments_congr hargument hsafe hdepth hmany (Nat.le_refl _)

/-- Every argument that is shown took a byte at least. -/
theorem length_le_left {further : Nat} {shown : List (List Char)} (hsafe : track.IsSafe text)
    (hdepth : track.now.depth = depth)
    (hok : arguments text argument further track = .ok shown after) :
    shown.length = further + 1 ∧ shown.length ≤ track.left text := by
  induction further generalizing track after shown with
  | zero =>
      obtain ⟨first, middle, hscan, hrest⟩ := exists_of_bind_ok hok
      have htaken := (hargument track hsafe hdepth).advances hscan
      cases hrest
      exact ⟨rfl, Nat.lt_of_le_of_lt (Nat.zero_le _) htaken.left_lt⟩
  | succ further ih =>
      obtain ⟨first, middle, hscan, hrest⟩ := exists_of_bind_ok hok
      obtain ⟨_, opened, hcomma, hrest⟩ := exists_of_bind_ok hrest
      obtain ⟨others, last, hothers, hrest⟩ := exists_of_bind_ok hrest
      cases hrest
      have htaken := (hargument track hsafe hdepth).advances hscan
      have hpassed := (expect_advances htaken.safe _ _).advances hcomma
      obtain ⟨hlength, hfew⟩ :=
        ih hpassed.safe ((htaken.trans hpassed).depth.trans hdepth) hothers
      have hless := (htaken.trans hpassed).left_lt
      rw [List.length_cons]
      omega

end Loop

end Scan

/-! ## Whole texts -/

/-- A result that is found on a track. -/
def Scan.ended (track : Track) : Except Violation α → EStateM.Result Stop Track α
  | .ok value => .ok value track
  | .error violation => .error (.violated violation) track

theorem Agrees.exists_ended {read : Except Violation (α × Cursor)}
    {result : EStateM.Result Stop Track α} (hagrees : Agrees text depth read result) :
    ∃ after : Track, after.IsSafe text ∧ after.now.depth = depth ∧
      result = Scan.ended after (Prod.fst <$> read) := by
  cases hagrees with
  | ok hafter => exact ⟨_, hafter.safe, hafter.depth, rfl⟩
  | violated hafter hdepth => exact ⟨_, hafter, hdepth, rfl⟩

theorem Cursor.IsIn.offset_lt_iff (hin : cursor.IsIn text) :
    cursor.offset < width text ↔ cursor.rest ≠ [] := by
  obtain ⟨before, rfl, hbefore⟩ := hin
  rw [width_append, hbefore]
  constructor
  · intro hless hrest
    rw [hrest] at hless
    exact Nat.lt_irrefl _ hless
  · exact fun hrest => Nat.lt_add_of_pos_right (width_pos hrest)

/-- Scanning a text by its bytes is shortening it. -/
theorem Scan.whole_agrees (namespaces : NameSet) (text : String) :
    ∃ track : Track, track.IsSafe text.toList ∧ track.now.depth = 0 ∧
      Scan.whole namespaces text.toList Track.start =
        Scan.ended track (shorten namespaces text) := by
  have htype : Mirrors text.toList 0 (Scan.type namespaces text.toList (maxNesting + 1))
      (shortenType namespaces maxNesting) := by
    rw [shortenType_eq_with]
    exact Scan.typeWith_mirrors (Scan.argument_mirrors (Nat.zero_add _) (Nat.le_refl _))
  have hwhole : Agrees text.toList 0
      (shortenType namespaces maxNesting (.start text) >>= fun read =>
        if read.2.rest.isEmpty then .ok (String.ofList read.1, read.2)
        else .error (.extraContents (String.ofList read.2.rest)))
      (Scan.whole namespaces text.toList Track.start) := by
    refine (htype (Track.stands_start text)).bind fun shown last after _ hafter => ?_
    rw [Scan.bind_of_ok (Scan.offset_eq hafter)]
    have hleft := hafter.isIn.offset_lt_iff
    cases hrest : last.rest with
    | nil =>
        rw [if_neg fun hless => hleft.mp hless hrest]
        exact Scan.pure_agrees hafter (String.ofList shown)
    | cons c rest =>
        rw [if_pos (hleft.mpr (hrest ▸ List.cons_ne_nil c rest)),
          Scan.bind_of_ok (Scan.rest_eq hafter), hrest]
        exact Scan.violate_agrees hafter _
  obtain ⟨track, hsafe, hdepth, hended⟩ := hwhole.exists_ended
  refine ⟨track, hsafe, hdepth, ?_⟩
  rw [hended, map_bind]
  congr 2
  funext read
  obtain ⟨shown, last⟩ := read
  dsimp only
  cases last.rest with
  | nil => rfl
  | cons c rest => rfl

theorem isBoundary_of_read {text : String} {violation : Violation} {place : Nat}
    (hread : read text = .error violation) (hplace : violation.offset? = some place) :
    IsBoundary text.toList place := by
  rcases read_eq_error hread with hread | ⟨type, last, -, -, rfl⟩
  · obtain ⟨taken, behind, hsplit, hdecides⟩ := readType_looksAhead maxNesting 0 text.toList
    rw [Cursor.start, hsplit] at hread
    rcases hdecides with ⟨type, htakes⟩ | ⟨noticed, hnoticed, hrefuses⟩
    · rw [htakes behind rfl] at hread
      cases hread
    · rw [hrefuses behind rfl] at hread
      cases hread
      rw [hplace, Nat.zero_add] at hnoticed
      exact ⟨taken, behind, hsplit, (Option.some.inj hnoticed).symm⟩
  · cases hplace

end TypeName

namespace Simplifier

open ActivityCatalogue.TypeName (EndsOrAdvances IsArity Scan Track maxNesting width)

/-- **Main statement.**  Scanning a text by its bytes is simplifying it: the scanner never strays.
All its stations are boundaries of the text, none lies before an earlier one, none nests deeper
than `maxNesting`, and at the end the nesting is what it was at the start.

On any safe track an argument advances by a byte at least or ends in a violation, and the nesting
is what it was, with as many nested calls as there are levels left.  So a loop over arguments
takes no more rounds than there are bytes left, however many are announced.  Any number may be
announced, and it is cut at the greatest one of 64 bits.  Every byte that is told in a violation
is a boundary of the text. -/
theorem simplify?_by_bytes (simplifier : Simplifier) (text : String) :
    (∃ track : Track, track.IsSafe text.toList ∧ track.now.depth = 0 ∧
      (∀ station ∈ track.stations, (⟨station.offset⟩ : String.Pos.Raw).IsValid text) ∧
      Scan.whole simplifier.namespaces text.toList Track.start =
        Scan.ended track (simplifier.simplify? text)) ∧
    (∀ (track : Track) (calls : Nat), track.IsSafe text.toList →
      maxNesting ≤ track.now.depth + calls →
      EndsOrAdvances text.toList track
        (Scan.argument simplifier.namespaces text.toList calls track)) ∧
    (∀ (track : Track) (calls further : Nat), track.IsSafe text.toList →
      maxNesting ≤ track.now.depth + calls →
      EndsOrAdvances text.toList track (Scan.arguments text.toList
        (Scan.argument simplifier.namespaces text.toList calls) further track) ∧
      Scan.arguments text.toList (Scan.argument simplifier.namespaces text.toList calls) further
          track =
        Scan.arguments text.toList (Scan.argument simplifier.namespaces text.toList calls)
          (min further (track.left text.toList)) track ∧
      ∀ shown after, Scan.arguments text.toList
          (Scan.argument simplifier.namespaces text.toList calls) further track = .ok shown after →
        shown.length = further + 1 ∧ shown.length ≤ track.left text.toList) ∧
    (∀ (track : Track) (digits behind : List Char) (count : Nat), track.IsSafe text.toList →
      IsArity digits count → (∀ c ∈ behind.head?, c.isDigit = false) →
      Scan.rest text.toList track = .ok (digits ++ behind) track →
      ∃ after, track.Advances text.toList after ∧
        after.now.offset = track.now.offset + width digits ∧
        Scan.arity text.toList track = .ok (min (2 ^ 64 - 1) count) after) ∧
    ∀ violation offset, simplifier.simplify? text = .error violation →
      violation.offset? = some offset →
        (⟨offset⟩ : String.Pos.Raw).IsValid text ∧ offset ≤ text.utf8ByteSize := by
  refine ⟨?_, fun track calls hsafe hcalls => hsafe.argument_advances hcalls,
    fun track calls further hsafe hcalls => ?_, fun track digits behind count hsafe harity hbehind
      hrest => ?_, fun violation offset herror hplace => ?_⟩
  · obtain ⟨track, hsafe, hdepth, hwhole⟩ := Scan.whole_agrees simplifier.namespaces text
    rw [shorten_eq_simplify?] at hwhole
    refine ⟨track, hsafe, hdepth, fun station hstation => ?_, hwhole⟩
    exact TypeName.isBoundary_iff_isValid.mp (hsafe.boundary station hstation)
  · have hargument : ∀ other : Track, other.IsSafe text.toList →
        other.now.depth = track.now.depth → EndsOrAdvances text.toList other
          (Scan.argument simplifier.namespaces text.toList calls other) :=
      fun other hother hdepth => hother.argument_advances (hdepth ▸ hcalls)
    exact ⟨Scan.arguments_advances hargument further hsafe rfl,
      Scan.arguments_eq_min hargument further hsafe rfl,
      fun _ _ => Scan.length_le_left hargument hsafe rfl⟩
  · exact Scan.exists_arity hsafe harity hbehind hrest
  · have hboundary := TypeName.isBoundary_of_read (simplify?_eq_error_iff.mp herror) hplace
    refine ⟨TypeName.isBoundary_iff_isValid.mp hboundary, ?_⟩
    rw [← TypeName.width_toList]
    exact hboundary.le_width

/-- Nearly a hundred quintillion arguments are announced, and two are there.  The scanner counts to
the greatest number, but eight rounds tell it that the third argument is missing. -/
theorem simplify?_by_bytes_quintillions :
    (∃ track : Track, track.IsSafe "é`99999999999999999999<ü,ß[]>".toList ∧
      Scan.whole (ofNamespaces []).namespaces "é`99999999999999999999<ü,ß[]>".toList Track.start =
        .error (.violated (.commaMissing 31)) track) ∧
    (∃ after, Scan.arity "é`99999999999999999999<ü,ß[]>".toList (Track.start.movedBy 3) =
      .ok (2 ^ 64 - 1) after) ∧
    EndsOrAdvances "é`99999999999999999999<ü,ß[]>".toList (Track.start.movedBy 24)
      (Scan.argument (ofNamespaces []).namespaces "é`99999999999999999999<ü,ß[]>".toList 64
        (Track.start.movedBy 24)) ∧
    Scan.arguments "é`99999999999999999999<ü,ß[]>".toList
        (Scan.argument (ofNamespaces []).namespaces "é`99999999999999999999<ü,ß[]>".toList 64)
        (2 ^ 64 - 2) (Track.start.movedBy 24) =
      Scan.arguments "é`99999999999999999999<ü,ß[]>".toList
        (Scan.argument (ofNamespaces []).namespaces "é`99999999999999999999<ü,ß[]>".toList 64)
        8 (Track.start.movedBy 24) ∧
    (⟨31⟩ : String.Pos.Raw).IsValid "é`99999999999999999999<ü,ß[]>" := by
  have herror : (ofNamespaces []).simplify? "é`99999999999999999999<ü,ß[]>" =
      .error (.commaMissing 31) := by decide +kernel
  have hsafe (bytes : Nat) (hcut : (TypeName.charsFrom? (0 + bytes)
      "é`99999999999999999999<ü,ß[]>".toList).isSome = true) :
      (Track.start.movedBy bytes).IsSafe "é`99999999999999999999<ü,ß[]>".toList :=
    (Track.isSafe_start _).moveTo (TypeName.isSome_charsFrom?_iff.mp hcut) (Nat.zero_le _)
      (Nat.le_add_right _ _)
  have hopened := hsafe 24 (by decide +kernel)
  obtain ⟨⟨track, htrack, -, -, hwhole⟩, hargument, hloop, harity, hoffsets⟩ :=
    simplify?_by_bytes (ofNamespaces []) "é`99999999999999999999<ü,ß[]>"
  rw [herror] at hwhole
  have hdigits : IsArity "99999999999999999999".toList 99999999999999999999 :=
    ⟨by decide +kernel, List.all_eq_true.mp (by decide +kernel), by decide +kernel,
      by decide +kernel⟩
  have hbehind : ∀ c ∈ "<ü,ß[]>".toList.head?, c.isDigit = false := by
    have hhead : "<ü,ß[]>".toList.head? = some '<' := by decide +kernel
    rw [hhead]
    rintro _ ⟨⟩
    rfl
  obtain ⟨after, -, -, hannounced⟩ :=
    harity (Track.start.movedBy 3) _ _ _ (hsafe 3 (by decide +kernel)) hdigits hbehind rfl
  exact ⟨⟨track, htrack, hwhole⟩, ⟨after, hannounced⟩, hargument _ 64 hopened (by decide),
    (hloop _ 64 (2 ^ 64 - 2) hopened (by decide)).2.1, (hoffsets _ 31 herror rfl).1⟩

end Simplifier

end ActivityCatalogue
