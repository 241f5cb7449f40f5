import ActivityCatalogue.Proofs.OrdinaryPath

/-!
# All or nothing at the target

Content that is put at the end of an ordinary path is there as a whole if all is well.  If a
fault is told instead, the target is as it was, with all that is below it
(`replace_all_or_nothing`).

That is decided by where the paths lead.  Of what changes before the fault nothing is at the
target or below:

* directories are made at some of the names above, so their places are shorter than the one
  of the target (`IsTarget.exists_of_passesThrough`);
* the draft is beside the target.  It is the target if the path bears the extension of a
  draft already, but then the draft is moved onto itself, and that does not fail
  (`IsTarget.exists_move_draft`).

The directories that were made may let a path lead to a place that it did not come to
before.  In a coherent tree, where all that exists is in a directory, there is nothing at
that place (`Coherent.follow_down`).
-/

namespace ActivityCatalogue

variable {tree other after drafted : FileTree} {path : String} {fromRoot : Bool}
  {origin place above below : Place} {name draft : FileName} {node : FileNode}
  {content : ByteArray}

namespace FileTree

/-! ## Coherent trees -/

/-- Whatever is in the tree is in a directory of the tree. -/
def Coherent (tree : FileTree) : Prop :=
  ∀ place name node, tree.at? (place ++ [name]) = some node → tree.at? place = some .directory

theorem coherent_of_entries
    (hentries : ∀ entry ∈ tree.entries, tree.at? entry.1.dropLast = some .directory) :
    tree.Coherent := by
  intro place name node hnode
  obtain ⟨first, more, hcons⟩ := List.exists_cons_of_ne_nil
    (List.append_ne_nil_of_right_ne_nil place (List.cons_ne_nil name []))
  have hlookup : tree.entries.lookup (place ++ [name]) = some node := by
    rw [hcons] at hnode ⊢
    exact hnode
  obtain ⟨before, behind, heq, -⟩ := List.lookup_eq_some_iff.mp hlookup
  have hdirectory := hentries (place ++ [name], node) (by simp [heq])
  rwa [List.dropLast_concat] at hdirectory

theorem Coherent.directory_above (hcoherent : tree.Coherent)
    (hnode : tree.at? (above ++ name :: below) = some node) :
    tree.at? above = some .directory := by
  induction below generalizing above name with
  | nil => exact hcoherent above name node hnode
  | cons next below ih =>
      rw [← List.singleton_append, ← List.append_assoc] at hnode
      exact hcoherent above name .directory (ih hnode)

/-- Steps down lead to the names that they tell. -/
theorem eq_of_follow_down (hfollow : tree.follow origin (above.map .down) = .ok place) :
    place = origin ++ above := by
  induction above generalizing origin with
  | nil =>
      rw [List.append_nil]
      exact (Except.ok.inj hfollow).symm
  | cons name above ih =>
      obtain ⟨-, next, hnext, hfurther⟩ := follow_cons_eq_ok_iff.mp hfollow
      obtain rfl : next = origin ++ [name] := by
        unfold Step.next at hnext
        dsimp only at hnext
        split at hnext
        · exact (Except.ok.inj hnext).symm
        · cases hnext
      rw [ih hfurther, List.append_assoc, List.singleton_append]

/-- Steps down lead to what exists, if the names are none that are too long. -/
theorem Coherent.follow_down (hcoherent : tree.Coherent)
    (hother : other.follow origin (above.map .down) = .ok place)
    (hnode : tree.at? place = some node) :
    tree.follow origin (above.map .down) = .ok place := by
  have hplace := eq_of_follow_down hother
  induction above generalizing origin with
  | nil => exact hother
  | cons name above ih =>
      obtain ⟨-, next, hnext, hfurther⟩ := follow_cons_eq_ok_iff.mp hother
      have hdirectory : tree.at? origin = some .directory :=
        hcoherent.directory_above (hplace ▸ hnode)
      exact follow_cons_eq_ok_iff.mpr
        ⟨hdirectory, next, hnext, ih hfurther (eq_of_follow_down hfurther)⟩

/-! ## Where the paths lead -/

/-- Where paths start, be it at the root or at the working directory. -/
def startOf (tree : FileTree) (fromRoot : Bool) : Place :=
  if fromRoot then [] else tree.workingDirectory

end FileTree

namespace IsTarget

open FileTree

theorem eq_of_leadsTo (htarget : IsTarget path fromRoot above name draft)
    (hleads : tree.LeadsTo path place) :
    place = tree.startOf fromRoot ++ (above ++ [name]) := by
  obtain ⟨route, hroute, hplace⟩ := hleads
  obtain rfl := htarget.route route hroute
  exact eq_of_follow_down hplace

theorem draft_eq_of_leadsTo (htarget : IsTarget path fromRoot above name draft)
    (hleads : tree.LeadsTo (draftPath path) place) :
    place = tree.startOf fromRoot ++ (above ++ [draft]) := by
  obtain ⟨route, hroute, hplace⟩ := hleads
  obtain rfl := htarget.draftRoute route hroute
  exact eq_of_follow_down hplace

theorem exists_of_passesThrough (htarget : IsTarget path fromRoot above name draft)
    (hpasses : tree.PassesThrough (directoryPath path) place) :
    ∃ part, part <+: above ∧ place = tree.startOf fromRoot ++ part := by
  obtain ⟨route, hroute, steps, hpart, hfollow⟩ := hpasses
  obtain ⟨hstart, hsteps⟩ := htarget.directoryRoute route hroute
  rw [hsteps] at hpart
  obtain ⟨part, hprefix, rfl⟩ := List.prefix_map_iff.mp hpart
  rw [FileTree.origin, hstart] at hfollow
  exact ⟨part, hprefix, eq_of_follow_down hfollow⟩

/-- A draft that is its own target is moved without a fault. -/
theorem exists_move_draft (htarget : IsTarget path fromRoot above name draft)
    (hdraft : drafted.LeadsTo (draftPath path) place) (hplace : drafted.LeadsTo path place)
    (hnode : drafted.at? place = some (.file content)) :
    ∃ moved, drafted.move (draftPath path) path = .ok moved := by
  obtain ⟨draftRoute, hdraftRoute, hdraftPlace⟩ := hdraft
  obtain ⟨route, hroute, hplace⟩ := hplace
  have hlast : route.steps.getLast? = some (.down name) ∧ route.endsWithSlash = false := by
    rw [htarget.route route hroute]
    simp
  simp [move, hdraftRoute, hdraftPlace, hnode, hroute, hplace, hlast, bind, Except.bind]

end IsTarget

namespace FileTree

/-! ## The target -/

/-- After a fault everything at the target and below it is as it was. -/
theorem Replacing.at?_append_eq {fault : Fault}
    (hreplacing : Replacing tree path content after (some fault))
    (htarget : IsTarget path fromRoot above name draft) (hplace : after.LeadsTo path place)
    (below : Place) : after.at? (place ++ below) = tree.at? (place ++ below) := by
  have hmadeSame : ∀ made : FileTree, made.workingDirectory = after.workingDirectory →
      tree.AddsDirectories made (made.PassesThrough (directoryPath path)) →
        made.at? (place ++ below) = tree.at? (place ++ below) := by
    intro made hworking hmade
    refine (hmade.added (place ++ below)).resolve_right fun ⟨_, _, hway⟩ => ?_
    -- the directories are above the target
    obtain ⟨part, hpart, heq⟩ := htarget.exists_of_passesThrough hway
    rw [htarget.eq_of_leadsTo hplace, startOf, startOf, hworking, List.append_assoc,
      List.append_cancel_left_eq] at heq
    have hlength := hpart.length_le
    rw [← heq, List.length_append, List.length_append, List.length_singleton] at hlength
    omega
  cases hreplacing with
  | notMade failure hmade => exact hmadeSame after rfl hmade
  | notDrafted failure hmade => exact hmadeSame after rfl hmade
  | @notMoved made draftPlace failure hmade hleads hfree hmove =>
      have hdrafted := (DirectoriesIn.put (.file content) hfree).leadsTo hleads
      rw [← hmadeSame made rfl hmade]
      refine at?_put_of_ne _ _ fun heq => ?_
      -- the draft is beside the target, so it is the target itself
      have hnil : below = [] := by
        have htargetLength := congrArg List.length (htarget.eq_of_leadsTo hplace)
        have hdraftLength := congrArg List.length (htarget.draft_eq_of_leadsTo hdrafted)
        have hlength := congrArg List.length heq
        simp only [List.length_append, List.length_singleton] at htargetLength hdraftLength hlength
        exact List.eq_nil_of_length_eq_zero (by omega)
      rw [hnil, List.append_nil] at heq
      subst heq
      obtain ⟨moved, hmoved⟩ := htarget.exists_move_draft hdrafted hplace
        (at?_put_self made _ (ne_nil_of_not_directory hfree))
      rw [hmoved] at hmove
      exact nomatch hmove

/-- Trees with the same at the target find the same there, also if the path leads to the
target in one of them only. -/
theorem Coherent.toOption_find_eq (hcoherent : tree.Coherent)
    (htarget : IsTarget path fromRoot above name draft) (hkept : tree.DirectoriesIn other)
    (hsame : ∀ place, other.LeadsTo path place → other.at? place = tree.at? place) :
    (other.find path).toOption = (tree.find path).toOption := by
  have hfound : ∀ node, other.find path = .ok node ↔ tree.find path = .ok node := by
    intro node
    rw [find_eq_ok_iff, find_eq_ok_iff]
    constructor
    · rintro ⟨route, place, hroute, hother, hnode, hslash⟩
      rw [hsame place ⟨route, hroute, hother⟩] at hnode
      rw [locate, origin_eq hkept.workingDirectory, htarget.route route hroute] at hother
      refine ⟨route, place, hroute, ?_, hnode, hslash⟩
      rw [locate, htarget.route route hroute]
      exact hcoherent.follow_down hother hnode
    · rintro ⟨route, place, hroute, hplace, hnode, hslash⟩
      have hother := hkept.locate hplace
      rw [← hsame place ⟨route, hroute, hother⟩] at hnode
      exact ⟨route, place, hroute, hother, hnode, hslash⟩
  cases hfind : tree.find path with
  | ok node => rw [(hfound node).mpr hfind]
  | error failure =>
      cases hother : other.find path with
      | error otherFailure => rfl
      | ok node =>
          rw [(hfound node).mp hother] at hfind
          cases hfind

/-- **Main statement.**  In a coherent tree, content is put at the end of an ordinary path as a
whole or not at all.  Without a fault the path leads to a file with just that content.  After
one it leads to what was there before, be it nothing, a file with its bytes, or a directory,
and all that is below the target is as it was too. -/
theorem replace_all_or_nothing (tree : FileTree) (hcoherent : tree.Coherent) (path : String)
    (hordinary : Path.IsOrdinary path) (content : ByteArray) :
    ((tree.replace path content).2 = none →
      (tree.replace path content).1.find path = .ok (.file content)) ∧
    ∀ fault, (tree.replace path content).2 = some fault →
      ((tree.replace path content).1.find path).toOption = (tree.find path).toOption ∧
      ∀ place, (tree.replace path content).1.LeadsTo path place → ∀ below,
        (tree.replace path content).1.at? (place ++ below) = tree.at? (place ++ below) := by
  refine ⟨find_replace, fun fault hfault => ?_⟩
  obtain ⟨fromRoot, above, name, draft, htarget⟩ := hordinary.exists_isTarget
  have hreplacing := replacing tree path content
  rw [hfault] at hreplacing
  have hsame : ∀ place, (tree.replace path content).1.LeadsTo path place → ∀ below,
      (tree.replace path content).1.at? (place ++ below) = tree.at? (place ++ below) :=
    fun place hplace below => hreplacing.at?_append_eq htarget hplace below
  refine ⟨hcoherent.toOption_find_eq htarget hreplacing.directoriesIn fun place hplace => ?_,
    hsame⟩
  simpa using hsame place hplace []

/-- A file that is its own draft, and a directory with a file in it. -/
def shelf : FileTree where
  entries := [
    ([⟨"c.tmp", by cbv⟩], .file "old".toUTF8),
    ([⟨"d.json", by cbv⟩], .directory),
    ([⟨"d.json", by cbv⟩, ⟨"c.tmp", by cbv⟩], .file "note".toUTF8)]

/-- The file is replaced.  The directory is not, and keeps what it holds. -/
theorem replace_all_or_nothing_shelf :
    shelf.Coherent ∧ Path.IsOrdinary "c.tmp" ∧ Path.IsOrdinary "d.json" ∧
      (shelf.replace "c.tmp" "new".toUTF8).1.find "c.tmp" = .ok (.file "new".toUTF8) ∧
      (shelf.replace "d.json" "new".toUTF8).2.isSome = true ∧
      ((shelf.replace "d.json" "new".toUTF8).1.find "d.json").toOption = some .directory ∧
      (shelf.replace "d.json" "new".toUTF8).1.at? [⟨"d.json", by cbv⟩, ⟨"c.tmp", by cbv⟩] =
        some (.file "note".toUTF8) := by
  have hcoherent : shelf.Coherent := by
    refine coherent_of_entries fun entry hentry => ?_
    simp only [shelf, List.mem_cons, List.not_mem_nil, or_false] at hentry
    rcases hentry with rfl | rfl | rfl
    · rfl
    · rfl
    · cbv
  have hfile : Path.IsOrdinary "c.tmp" := by decide
  have hdirectory : Path.IsOrdinary "d.json" := by decide
  obtain ⟨fault, hfault⟩ : ∃ fault, (shelf.replace "d.json" "new".toUTF8).2 = some fault :=
    Option.isSome_iff_exists.mp (by cbv)
  have hleads : (shelf.replace "d.json" "new".toUTF8).1.LeadsTo "d.json" [⟨"d.json", by cbv⟩] :=
    ⟨⟨false, [.down ⟨"d.json", by cbv⟩], false⟩, by cbv, by cbv⟩
  obtain ⟨hsame, hbelow⟩ :=
    (replace_all_or_nothing shelf hcoherent "d.json" hdirectory "new".toUTF8).2 fault hfault
  refine ⟨hcoherent, hfile, hdirectory, ?_, ?_, ?_, ?_⟩
  · exact (replace_all_or_nothing shelf hcoherent "c.tmp" hfile "new".toUTF8).1 (by cbv)
  · rw [hfault, Option.isSome_some]
  · rw [hsame]
    cbv
  · refine (hbelow [⟨"d.json", by cbv⟩] hleads [⟨"c.tmp", by cbv⟩]).trans ?_
    cbv

end FileTree

end ActivityCatalogue
