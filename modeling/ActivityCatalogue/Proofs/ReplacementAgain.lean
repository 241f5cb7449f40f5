import ActivityCatalogue.Proofs.JoinedPath

/-!
# Replacing a file again after a fault

What a failed replacement has done remains: directories, and perhaps the draft.  The next
attempt comes to the same point, finds all of that in its place, and fails there again.  So it
changes nothing (`replace_again`).

For the directories this rests on two facts.  If all of them could be made, the last one is a
directory, and it remains one in every tree with the same directories (`ensureDirectories_again`).
If not, the last one is none (`not_hasDirectory_of_ensureDirectories`), and the directories
before it are as they were.
-/

namespace ActivityCatalogue

namespace FileTree

variable {tree other made : FileTree} {origin place : Place} {path : String} {step : Step}
  {steps backwards : List Step} {content : ByteArray} {failure : FileFailure}

theorem put_put (tree : FileTree) (place : Place) (node : FileNode) :
    (tree.put place node).put place node = tree.put place node := by
  simp [put]

/-! ## Directories at the end of some steps -/

/-- The steps lead to a directory. -/
def HasDirectory (tree : FileTree) (origin : Place) (steps : List Step) : Prop :=
  ∃ place, tree.follow origin steps = .ok place ∧ tree.at? place = some .directory

theorem HasDirectory.mono (hdirectory : tree.HasDirectory origin steps)
    (hkept : tree.DirectoriesIn other) : other.HasDirectory origin steps := by
  obtain ⟨place, hfollow, hnode⟩ := hdirectory
  exact ⟨place, hkept.follow hfollow, hkept.directory place hnode⟩

/-- One more step can only be made from a directory. -/
theorem hasDirectory_of_follow_concat
    (hfollow : tree.follow origin (steps ++ [step]) = .ok place) :
    tree.HasDirectory origin steps := by
  obtain ⟨before, hsteps, hstep⟩ := follow_append_eq_ok_iff.mp hfollow
  exact ⟨before, hsteps, (follow_cons_eq_ok_iff.mp hstep).1⟩

theorem HasDirectory.of_concat (hdirectory : tree.HasDirectory origin (steps ++ [step])) :
    tree.HasDirectory origin steps := by
  obtain ⟨place, hfollow, -⟩ := hdirectory
  exact hasDirectory_of_follow_concat hfollow

theorem ensureDirectory_of_hasDirectory (hdirectory : tree.HasDirectory origin steps) :
    tree.ensureDirectory origin steps = .ok tree := by
  obtain ⟨place, hfollow, hnode⟩ := hdirectory
  simp [ensureDirectory, makeDirectory, hfollow, hnode, bind, Except.bind]

/-- The directory that is ensured was there, or is made where nothing was. -/
theorem exists_of_ensureDirectory (hmade : tree.ensureDirectory origin steps = .ok made) :
    ∃ place, tree.follow origin steps = .ok place ∧
      (tree.at? place = some .directory ∧ made = tree ∨
        tree.at? place = none ∧ made = tree.put place .directory) := by
  unfold ensureDirectory at hmade
  split at hmade
  · next hnew =>
    cases hmade
    obtain ⟨place, hfollow, hnode, rfl⟩ := makeDirectory_eq_ok_iff.mp hnew
    exact ⟨place, hfollow, Or.inr ⟨hnode, rfl⟩⟩
  · split at hmade
    · next place hfollow =>
      split at hmade
      · next hdirectory =>
        cases hmade
        exact ⟨place, hfollow, Or.inl ⟨hdirectory, rfl⟩⟩
      · cases hmade
    · cases hmade

theorem hasDirectory_of_ensureDirectory (hmade : tree.ensureDirectory origin steps = .ok made) :
    made.HasDirectory origin steps := by
  obtain ⟨place, hfollow, ⟨hnode, rfl⟩ | ⟨hnode, rfl⟩⟩ := exists_of_ensureDirectory hmade
  · exact ⟨place, hfollow, hnode⟩
  · have hfree : tree.at? place ≠ some .directory := by
      rw [hnode]
      exact nofun
    exact ⟨place, (DirectoriesIn.put _ hfree).follow hfollow,
      at?_put_self tree _ (ne_nil_of_not_directory hfree)⟩

/-- A directory can only be made in a directory. -/
theorem hasDirectory_before (hmade : tree.ensureDirectory origin (steps ++ [step]) = .ok made) :
    tree.HasDirectory origin steps := by
  obtain ⟨final, hfollow, -⟩ := exists_of_ensureDirectory hmade
  exact hasDirectory_of_follow_concat hfollow

/-! ## Making all missing directories again -/

theorem hasDirectory_of_ensureDirectories
    (hmade : tree.ensureDirectories origin (step :: backwards) = (made, none)) :
    made.HasDirectory origin (backwards.reverse ++ [step]) := by
  rw [ensureDirectories, List.reverse_cons] at hmade
  split at hmade
  · next hensured =>
    cases hmade
    exact hasDirectory_of_ensureDirectory hensured
  · split at hmade
    · cases hmade
    · split at hmade
      · next hensured =>
        cases hmade
        exact hasDirectory_of_ensureDirectory hensured
      · cases hmade
  · cases hmade

/-- Where making directories fails, there is no directory afterwards either. -/
theorem not_hasDirectory_of_ensureDirectories
    (hmade : tree.ensureDirectories origin backwards = (made, some failure)) :
    ¬ made.HasDirectory origin backwards.reverse := by
  induction backwards generalizing made failure with
  | nil => cases hmade
  | cons step before ih =>
      rw [List.reverse_cons]
      intro hdirectory
      have hthere := ensureDirectory_of_hasDirectory hdirectory
      rw [ensureDirectories, List.reverse_cons] at hmade
      split at hmade
      · cases hmade
      · split at hmade
        · next hbefore =>
          cases hmade
          exact ih hbefore hdirectory.of_concat
        · split at hmade
          · cases hmade
          · next hfails =>
            cases hmade
            rw [hthere] at hfails
            cases hfails
      · next hfails =>
        cases hmade
        rw [hthere] at hfails
        cases hfails

/-- Directories that could be made need not be made again, whatever else has changed. -/
theorem ensureDirectories_again (hmade : tree.ensureDirectories origin backwards = (made, none))
    (hkept : made.DirectoriesIn other) :
    other.ensureDirectories origin backwards = (other, none) := by
  cases backwards with
  | nil => rfl
  | cons step before =>
      have hdirectory := (hasDirectory_of_ensureDirectories hmade).mono hkept
      rw [ensureDirectories, List.reverse_cons, ensureDirectory_of_hasDirectory hdirectory]

/-- Making directories fails without a change if the last one fails, and it makes a difference
only to those before it whether they are missing. -/
theorem exists_ensureDirectories_eq {before : List Step}
    (hfails : tree.ensureDirectory origin (before.reverse ++ [step]) = .error failure)
    (hbefore : failure = .missing →
      ∃ failure?, tree.ensureDirectories origin before = (tree, failure?)) :
    ∃ same, tree.ensureDirectories origin (step :: before) = (tree, some same) := by
  rw [ensureDirectories, List.reverse_cons, hfails]
  cases failure with
  | missing =>
      obtain ⟨failure?, hbefore⟩ := hbefore rfl
      cases failure? with
      | some earlier => exact ⟨earlier, by simp only [hbefore]⟩
      | none => exact ⟨.missing, by simp only [hbefore, hfails]⟩
  | _ => exact ⟨_, rfl⟩

/-- Where making directories has failed, it fails again and changes nothing. -/
theorem ensureDirectories_fails_again
    (hmade : tree.ensureDirectories origin backwards = (made, some failure)) :
    ∃ same, made.ensureDirectories origin backwards = (made, some same) := by
  induction backwards generalizing made failure with
  | nil => cases hmade
  | cons step before ih =>
      rw [ensureDirectories, List.reverse_cons] at hmade
      split at hmade
      · cases hmade
      · split at hmade
        · -- the directories before could not be made, so the last one cannot be made again
          next hbefore =>
          cases hmade
          obtain ⟨same, hagain⟩ := ih hbefore
          cases hensured : made.ensureDirectory origin (before.reverse ++ [step]) with
          | ok complete =>
              exact absurd (hasDirectory_before hensured)
                (not_hasDirectory_of_ensureDirectories hbefore)
          | error refusal => exact exists_ensureDirectories_eq hensured fun _ => ⟨_, hagain⟩
        · split at hmade
          · cases hmade
          · next hbefore _ _ hfails =>
            cases hmade
            exact exists_ensureDirectories_eq hfails fun _ =>
              ⟨none, ensureDirectories_again hbefore (.refl _)⟩
      · next hother hfails =>
        cases hmade
        exact exists_ensureDirectories_eq hfails fun heq => absurd heq hother

theorem origin_createDirectories (tree : FileTree) (path : String) (route : Route) :
    (tree.createDirectories path).1.origin route = tree.origin route :=
  origin_eq (addsDirectories_createDirectories tree path).workingDirectory route

theorem createDirectories_again (hmade : tree.createDirectories path = (made, none))
    (hkept : made.DirectoriesIn other) : other.createDirectories path = (other, none) := by
  have horigin := origin_createDirectories tree path
  rw [hmade] at horigin
  rw [createDirectories] at hmade ⊢
  split at hmade
  · next hempty => rw [if_pos hempty]
  · next hempty =>
    rw [if_neg hempty]
    split at hmade
    · cases hmade
    · next route hroute =>
      rw [origin_eq hkept.workingDirectory, horigin]
      exact ensureDirectories_again hmade hkept

theorem createDirectories_fails_again (hmade : tree.createDirectories path = (made, some failure)) :
    ∃ same, made.createDirectories path = (made, some same) := by
  have horigin := origin_createDirectories tree path
  rw [hmade] at horigin
  rw [createDirectories] at hmade ⊢
  split at hmade
  · cases hmade
  · next hempty =>
    rw [if_neg hempty]
    split at hmade
    · exact ⟨_, rfl⟩
    · next route hroute =>
      rw [horigin]
      exact ensureDirectories_fails_again hmade

/-! ## Replacing again -/

/-- Writing what has been written changes nothing. -/
theorem write_again (hwrite : tree.write path content = .ok other) :
    tree.DirectoriesIn other ∧ other.write path content = .ok other := by
  obtain ⟨route, place, hroute, hplace, hfree, hslash, rfl⟩ := write_eq_ok_iff.mp hwrite
  have hkept : tree.DirectoriesIn (tree.put place (.file content)) := .put _ hfree
  exact ⟨hkept, write_eq_ok_iff.mpr ⟨route, place, hroute, hkept.locate hplace,
    at?_put_ne_directory hfree content, hslash, (put_put ..).symm⟩⟩

/-- **Main statement.**  Where content could not be put at the end of a path, the next attempt
changes nothing. -/
theorem replace_again {fault : Fault} (hfault : (tree.replace path content).2 = some fault) :
    ((tree.replace path content).1.replace path content).1 = (tree.replace path content).1 := by
  unfold replace at hfault ⊢
  rw [← directoryPath] at hfault ⊢
  rcases hmade : tree.createDirectories (directoryPath path) with ⟨made, _ | failure⟩
  · cases hwrite : made.write (draftPath path) content with
    | error failure =>
        have hagain := createDirectories_again hmade (.refl made)
        simp only [hmade, hwrite, hagain]
    | ok drafted =>
        obtain ⟨hkept, hdrafted⟩ := write_again hwrite
        have hagain := createDirectories_again hmade hkept
        cases hmove : drafted.move (draftPath path) path with
        | error failure => simp only [hmade, hwrite, hmove, hagain, hdrafted]
        | ok replaced => simp [hmade, hwrite, hmove] at hfault
  · obtain ⟨same, hagain⟩ := createDirectories_fails_again hmade
    simp only [hmade, hagain]

end FileTree

end ActivityCatalogue
