import ActivityCatalogue.Codec.SettingsDocument

/-!
# The settings document is read back

The names in the built-in settings need no quotes, so each of them stands in its line as it is
(`Yaml.item_of_isPlainSafe`), and the document is known line by line.  It spells the settings
for which it was written (`Settings.ofDocument?_toDocument`).
-/

namespace ActivityCatalogue

/-! ## A section without quotes -/

namespace Yaml

variable {text sectionName listName : List Char} {texts : List String}

theorem isBreak_of_isPlainSafe (hsafe : isPlainSafe text = true) {c : Char} (hmem : c ∈ text) :
    isBreak c = false := by
  simp only [isPlainSafe, Bool.and_eq_true, List.all_eq_true, Bool.not_eq_true'] at hsafe
  exact (hsafe.1.1.2 c hmem).2

theorem itemText_of_isPlainSafe (hlookalike : isLookalike (String.ofList text) = false)
    (hsafe : isPlainSafe text = true) : itemText (String.ofList text) = text := by
  have hline : text.contains '\n' = false := by
    rw [List.contains_eq_mem, decide_eq_false_iff_not]
    intro hmem
    cases isBreak_of_isPlainSafe hsafe hmem
  simp only [itemText, String.toList_ofList, hline, hlookalike, hsafe, Bool.false_and,
    Bool.not_false, Bool.and_self, Bool.false_eq_true, if_false, if_true]

/-- A text that needs no quotes stands in its line as it is. -/
theorem item_of_isPlainSafe (hlookalike : isLookalike (String.ofList text) = false)
    (hsafe : isPlainSafe text = true) :
    item (String.ofList text) = [' ', ' ', '-', ' '] ++ text ++ ['\n'] := by
  have hlast : text.getLast?.any isBreak = false := by
    cases hend : text.getLast? with
    | none => rfl
    | some c => exact isBreak_of_isPlainSafe hsafe (List.mem_of_getLast? hend)
  have hfeed : (text.getLast? == some '\n') = false := by
    rw [beq_eq_false_iff_ne]
    intro hend
    rw [hend] at hlast
    cases hlast
  simp only [item, itemText_of_isPlainSafe hlookalike hsafe, hlast, hfeed, Bool.or_self,
    Bool.false_eq_true, if_false, List.cons_append, List.nil_append]

theorem items_cons (hplain : isLookalike (String.ofList text) = false ∧ isPlainSafe text = true) :
    (String.ofList text :: texts).flatMap item =
      [' ', ' ', '-', ' '] ++ text ++ ['\n'] ++ texts.flatMap item := by
  rw [List.flatMap_cons, item_of_isPlainSafe hplain.1 hplain.2]

theorem toList_listSection (hsome : texts.isEmpty = false) :
    (listSection (String.ofList sectionName) (String.ofList listName) texts).toList =
      sectionName ++ [':', '\n', ' ', ' '] ++ listName ++ [':', '\n'] ++ texts.flatMap item := by
  simp only [listSection, hsome, Bool.false_eq_true, if_false, String.toList_append,
    String.toList_ofList, String.reduceToList, List.append_assoc, List.cons_append,
    List.nil_append]

end Yaml

/-! ## The document -/

namespace Settings

variable {text : String} {settings : Settings}

/-- The document of the built-in settings is read back. -/
theorem ofDocument?_toDocument : ofDocument? (toDocument {}) = some {} := by
  simp only [ofDocument?, Text.isVoid, Yaml.Document.ofText?, Yaml.tokens?, Yaml.glyphs?,
    toDocument, String.toList_append]
  -- written out item by item, since evaluating the writer takes longer than the reader
  rw [Yaml.toList_listSection, Yaml.toList_listSection, builtinActivityClasses, builtinNamespaces,
    Yaml.items_cons, Yaml.items_cons, Yaml.items_cons, Yaml.items_cons,
    Yaml.items_cons, Yaml.items_cons, Yaml.items_cons, Yaml.items_cons]
  all_goals decide +kernel

theorem parse_of_ofDocument? (path : String) (hread : ofDocument? text = some settings) :
    parse path text = .ok settings := by
  simp only [parse, hread]

end Settings

end ActivityCatalogue
