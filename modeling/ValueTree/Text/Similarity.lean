/-!
# Similar words

Two words are similar if many letters of one stand at about the same place in the other, and in the
same order.
-/

namespace ValueTree.Similarity

/-- How far apart two letters may stand that are taken for the same. -/
def reach (a b : List Char) : Nat := max a.length b.length / 2 - 1

/-- The places in the second word of the letters of the first. A letter goes to the first place in
reach that has the same letter and is still free. -/
def places (reach : Nat) (b : List (Char × Nat)) :
    List (Char × Nat) → (taken : List Nat) → List Nat
  | [], _ => []
  | (c, i) :: rest, taken =>
    let free := b.find? fun (d, j) =>
      d = c && i ≤ j + reach && j ≤ i + reach && !taken.contains j
    match free with
    | some (_, j) => j :: places reach b rest (j :: taken)
    | none => places reach b rest taken

/-- A number from zero to one. -/
def degree (a b : List Char) : Float :=
  let found := places (reach a b) b.zipIdx a.zipIdx []
  let letters (places : List Nat) : List (Option Char) := places.map (b[·]?)
  let inOrder := found.mergeSort (· ≤ ·)
  let moved := ((letters found).zip (letters inOrder)).countP (fun (c, d) => c ≠ d) / 2
  if found.isEmpty then 0
  else
    let matched := found.length.toFloat
    (matched / a.length.toFloat + matched / b.length.toFloat +
      (found.length - moved).toFloat / matched) / 3

/-- The words that are similar to a word, the most similar last. -/
def among (word : String) (words : List String) : List String :=
  let rated := words.map fun other => (other, degree word.toList other.toList)
  ((rated.filter fun (_, degree) => 0.7 < degree).mergeSort fun x y => x.2 ≤ y.2).map (·.1)

/-- The most similar of the words, if any is similar; of several the last. -/
def closest? (word : String) (words : List String) : Option String := (among word words).getLast?

end ValueTree.Similarity
