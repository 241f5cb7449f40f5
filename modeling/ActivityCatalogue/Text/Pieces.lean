/-!
# Pieces between separators

A text cut at every occurrence of a separator.  There is one piece more than
there are separators, and pieces may be empty.
-/

namespace ActivityCatalogue.Text

/-- The first piece and the further ones. -/
def cut (separator : Char) : List Char → List Char × List (List Char)
  | [] => ([], [])
  | c :: rest =>
    let parts := cut separator rest
    if c = separator then ([], parts.1 :: parts.2) else (c :: parts.1, parts.2)

/-- The pieces of a text. -/
def pieces (separator : Char) (text : String) : List String :=
  let parts := cut separator text.toList
  (parts.1 :: parts.2).map String.ofList

/-- The text that pieces make with a separator between them. -/
def join (separator : Char) (parts : List String) : String :=
  String.ofList ([separator].intercalate (parts.map String.toList))

theorem cut_nil (separator : Char) : cut separator [] = ([], []) := rfl

theorem cut_cons (separator c : Char) (rest : List Char) : cut separator (c :: rest) =
    if c = separator then ([], (cut separator rest).1 :: (cut separator rest).2)
    else (c :: (cut separator rest).1, (cut separator rest).2) := rfl

theorem intercalate_cut (separator : Char) (text : List Char) :
    [separator].intercalate ((cut separator text).1 :: (cut separator text).2) = text := by
  induction text with
  | nil => rfl
  | cons c rest ih =>
    rw [cut_cons]
    split
    · next heq => simpa [List.intercalate_cons_cons, heq] using ih
    · next hne =>
      cases hmore : (cut separator rest).2 with
      | nil => simpa [hmore] using ih
      | cons next more => simpa [hmore, List.intercalate_cons_cons] using ih

end ActivityCatalogue.Text
